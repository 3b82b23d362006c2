import Ych.Base.AtomicObjects
import Mathlib.Data.List.TakeWhile
import Mathlib.Data.Nat.Bitwise

/-! `AcquireOrWaitSpinlock` and `RelinquishSpinlock` on several processors, one instruction after
the other, with interrupts taken wherever a processor acknowledges them and exceptions and NMIs
anywhere. What runs between the two is any guarded code, which may take other locks. -/
namespace Ych.SpinlockProtocol
open AtomicObjects Runs

variable {κ σ γ ι ρ ℓ : Type*} [DecidableEq κ]

/-- The instruction a context stands before, named after the labels of `Spinlock.asm`. -/
inductive Phase (ι ρ ℓ : Type*) where
  | outside
  | called (c : ι)
  | cli (c : ι)
  | tryAcquireLock (c : ι)
  | spinWaitLock (c : ι)
  | holding (c : ι) (l : ℓ)
  | relinquish (c : ι) (r : ρ)
  | sti (c : ι) (r : ρ)

/-- From the successful `BTS` until the word is cleared. -/
def Phase.holds : Phase ι ρ ℓ → Bool
  | .holding _ _ => true
  | .relinquish _ _ => true
  | _ => false

def Phase.waits : Phase ι ρ ℓ → Bool
  | .tryAcquireLock _ => true
  | .spinWaitLock _ => true
  | _ => false

/-- Before `CLI`, and after the `RET` that follows `STI`. -/
def Phase.interruptible : Phase ι ρ ℓ → Bool
  | .outside => true
  | .called _ => true
  | .cli _ => true
  | _ => false

/-- The running context and those it was put on top of, the last one first, with the flag that
`IRET` restores. -/
structure Cpu (ι ρ ℓ : Type*) where
  interruptFlag : Bool
  running : Phase ι ρ ℓ
  suspended : List (Bool × Phase ι ρ ℓ)

/-- The lock's word, what the lock protects, what the callers know, and the processors. -/
structure Machine (κ σ γ ι ρ ℓ : Type*) where
  dwState : Nat
  shared : σ
  client : γ
  cpu : κ → Cpu ι ρ ℓ

def Machine.put (m : Machine κ σ γ ι ρ ℓ) (k : κ) (cpu : Cpu ι ρ ℓ) : Machine κ σ γ ι ρ ℓ :=
  { m with cpu := Function.update m.cpu k cpu }

@[simp] theorem Machine.put_cpu (m : Machine κ σ γ ι ρ ℓ) (k : κ) (cpu : Cpu ι ρ ℓ) :
    (m.put k cpu).cpu = Function.update m.cpu k cpu := rfl

@[simp] theorem Machine.put_dwState (m : Machine κ σ γ ι ρ ℓ) (k : κ) (cpu : Cpu ι ρ ℓ) :
    (m.put k cpu).dwState = m.dwState := rfl

@[simp] theorem Machine.put_shared (m : Machine κ σ γ ι ρ ℓ) (k : κ) (cpu : Cpu ι ρ ℓ) :
    (m.put k cpu).shared = m.shared := rfl

@[simp] theorem Machine.put_client (m : Machine κ σ γ ι ρ ℓ) (k : κ) (cpu : Cpu ι ρ ℓ) :
    (m.put k cpu).client = m.client := rfl

/-- One instruction, or one step of the code around the lock, on processor `k`. An interrupt needs
the interrupt flag, an NMI or an exception does not; an interrupt gate clears the flag and a trap
gate keeps it. `STI` lets its `RET` through before the next interrupt. -/
inductive Step (code : Guarded σ ι ρ ℓ) (clients : Clients γ ι ρ) (k : κ) :
    Machine κ σ γ ι ρ ℓ → Machine κ σ γ ι ρ ℓ → Prop where
  | call (m : Machine κ σ γ ι ρ ℓ) (flag : Bool) (c : ι) (client : γ)
      (below : List (Bool × Phase ι ρ ℓ)) (hcpu : m.cpu k = ⟨flag, .outside, below⟩)
      (hc : clients.issue m.client c = some client) :
      Step code clients k m { m.put k ⟨flag, .called c, below⟩ with client := client }
  | early (m : Machine κ σ γ ι ρ ℓ) (flag : Bool) (c : ι) (r : ρ)
      (below : List (Bool × Phase ι ρ ℓ)) (hcpu : m.cpu k = ⟨flag, .called c, below⟩)
      (hearly : code.early c m.shared = some r) :
      Step code clients k m
        { m.put k ⟨flag, .outside, below⟩ with client := clients.receive m.client c r }
  | proceed (m : Machine κ σ γ ι ρ ℓ) (flag : Bool) (c : ι) (below : List (Bool × Phase ι ρ ℓ))
      (hcpu : m.cpu k = ⟨flag, .called c, below⟩) (hearly : code.early c m.shared = none) :
      Step code clients k m (m.put k ⟨flag, .cli c, below⟩)
  | cli (m : Machine κ σ γ ι ρ ℓ) (flag : Bool) (c : ι) (below : List (Bool × Phase ι ρ ℓ))
      (hcpu : m.cpu k = ⟨flag, .cli c, below⟩) :
      Step code clients k m (m.put k ⟨false, .tryAcquireLock c, below⟩)
  | btsTaken (m : Machine κ σ γ ι ρ ℓ) (flag : Bool) (c : ι) (below : List (Bool × Phase ι ρ ℓ))
      (hcpu : m.cpu k = ⟨flag, .tryAcquireLock c, below⟩) (hbit : m.dwState.testBit 0 = true) :
      Step code clients k m
        { m.put k ⟨flag, .spinWaitLock c, below⟩ with dwState := m.dwState ||| 1 }
  | btsFree (m : Machine κ σ γ ι ρ ℓ) (flag : Bool) (c : ι) (below : List (Bool × Phase ι ρ ℓ))
      (hcpu : m.cpu k = ⟨flag, .tryAcquireLock c, below⟩) (hbit : m.dwState.testBit 0 = false) :
      Step code clients k m
        { m.put k ⟨flag, .holding c (code.enter c), below⟩ with dwState := m.dwState ||| 1 }
  | testTaken (m : Machine κ σ γ ι ρ ℓ) (flag : Bool) (c : ι) (below : List (Bool × Phase ι ρ ℓ))
      (hcpu : m.cpu k = ⟨flag, .spinWaitLock c, below⟩) (hbit : m.dwState &&& 1 ≠ 0) :
      Step code clients k m m
  | testFree (m : Machine κ σ γ ι ρ ℓ) (flag : Bool) (c : ι) (below : List (Bool × Phase ι ρ ℓ))
      (hcpu : m.cpu k = ⟨flag, .spinWaitLock c, below⟩) (hbit : m.dwState &&& 1 = 0) :
      Step code clients k m (m.put k ⟨flag, .tryAcquireLock c, below⟩)
  | micro (m : Machine κ σ γ ι ρ ℓ) (flag : Bool) (c : ι) (l l' : ℓ) (shared : σ)
      (below : List (Bool × Phase ι ρ ℓ)) (hcpu : m.cpu k = ⟨flag, .holding c l, below⟩)
      (hmicro : code.micro l m.shared = (.inl l', shared)) :
      Step code clients k m { m.put k ⟨flag, .holding c l', below⟩ with shared := shared }
  | answer (m : Machine κ σ γ ι ρ ℓ) (flag : Bool) (c : ι) (l : ℓ) (r : ρ) (shared : σ)
      (below : List (Bool × Phase ι ρ ℓ)) (hcpu : m.cpu k = ⟨flag, .holding c l, below⟩)
      (hmicro : code.micro l m.shared = (.inr r, shared)) :
      Step code clients k m { m.put k ⟨flag, .relinquish c r, below⟩ with shared := shared }
  -- the `CLI` and `STI` of another lock that the guarded part takes and releases
  | nested (m : Machine κ σ γ ι ρ ℓ) (flag flag' : Bool) (c : ι) (l : ℓ)
      (below : List (Bool × Phase ι ρ ℓ)) (hcpu : m.cpu k = ⟨flag, .holding c l, below⟩)
      (hnests : code.nests l = true) :
      Step code clients k m (m.put k ⟨flag', .holding c l, below⟩)
  | clear (m : Machine κ σ γ ι ρ ℓ) (flag : Bool) (c : ι) (r : ρ)
      (below : List (Bool × Phase ι ρ ℓ)) (hcpu : m.cpu k = ⟨flag, .relinquish c r, below⟩) :
      Step code clients k m { m.put k ⟨flag, .sti c r, below⟩ with dwState := 0 }
  | sti (m : Machine κ σ γ ι ρ ℓ) (flag : Bool) (c : ι) (r : ρ) (below : List (Bool × Phase ι ρ ℓ))
      (hcpu : m.cpu k = ⟨flag, .sti c r, below⟩) :
      Step code clients k m
        { m.put k ⟨true, .outside, below⟩ with client := clients.receive m.client c r }
  | elsewhere (m : Machine κ σ γ ι ρ ℓ) (flag flag' : Bool) (below : List (Bool × Phase ι ρ ℓ))
      (hcpu : m.cpu k = ⟨flag, .outside, below⟩) :
      Step code clients k m (m.put k ⟨flag', .outside, below⟩)
  | interrupt (m : Machine κ σ γ ι ρ ℓ) (p : Phase ι ρ ℓ) (below : List (Bool × Phase ι ρ ℓ))
      (hcpu : m.cpu k = ⟨true, p, below⟩) :
      Step code clients k m (m.put k ⟨false, .outside, (true, p) :: below⟩)
  | exception (m : Machine κ σ γ ι ρ ℓ) (flag flag' : Bool) (p : Phase ι ρ ℓ)
      (below : List (Bool × Phase ι ρ ℓ)) (hcpu : m.cpu k = ⟨flag, p, below⟩)
      (hgate : flag' = true → flag = true) :
      Step code clients k m (m.put k ⟨flag', .outside, (flag, p) :: below⟩)
  | iret (m : Machine κ σ γ ι ρ ℓ) (flag saved : Bool) (p : Phase ι ρ ℓ)
      (below : List (Bool × Phase ι ρ ℓ)) (hcpu : m.cpu k = ⟨flag, .outside, (saved, p) :: below⟩) :
      Step code clients k m (m.put k ⟨saved, p, below⟩)

def AnyStep (code : Guarded σ ι ρ ℓ) (clients : Clients γ ι ρ) (m m' : Machine κ σ γ ι ρ ℓ) :
    Prop := ∃ k, Step code clients k m m'

structure Machine.Start (m : Machine κ σ γ ι ρ ℓ) : Prop where
  free : m.dwState = 0
  outside : ∀ k, (m.cpu k).running = .outside ∧ (m.cpu k).suspended = []

def Cpu.contexts (cpu : Cpu ι ρ ℓ) : List (Phase ι ρ ℓ) :=
  cpu.running :: cpu.suspended.map Prod.snd

def Cpu.holders (cpu : Cpu ι ρ ℓ) : Nat := cpu.contexts.countP Phase.holds

theorem Cpu.holders_mk (flag : Bool) (p : Phase ι ρ ℓ) (below : List (Bool × Phase ι ρ ℓ)) :
    (Cpu.mk flag p below).holders =
      (below.map Prod.snd).countP Phase.holds + if p.holds then 1 else 0 := by
  rw [Cpu.holders, Cpu.contexts, List.countP_cons]

theorem Cpu.holders_pos {cpu : Cpu ι ρ ℓ} :
    0 < cpu.holders ↔ ∃ p ∈ cpu.contexts, p.holds = true := by
  rw [Cpu.holders, List.countP_pos_iff]

/-- Whoever waits has maskable interrupts off, and so has everybody behind `CLI` where the guarded
part takes no other lock. -/
structure Masked (code : Guarded σ ι ρ ℓ) (flag : Bool) (p : Phase ι ρ ℓ) : Prop where
  waiting : p.waits = true → flag = false
  single : (∀ l, code.nests l = false) → p.interruptible = false → flag = false

structure Cpu.AllMasked (code : Guarded σ ι ρ ℓ) (cpu : Cpu ι ρ ℓ) : Prop where
  running : Masked code cpu.interruptFlag cpu.running
  suspended : ∀ x ∈ cpu.suspended, Masked code x.1 x.2

/-- The bit is set exactly while a context is between its `BTS` and the clearing, and no two
contexts are there, on one processor or on two. -/
structure Guards (code : Guarded σ ι ρ ℓ) (m : Machine κ σ γ ι ρ ℓ) : Prop where
  masked : ∀ k, (m.cpu k).AllMasked code
  one : ∀ k, (m.cpu k).holders ≤ 1
  alone : ∀ k k', 0 < (m.cpu k).holders → 0 < (m.cpu k').holders → k = k'
  bit : m.dwState.testBit 0 = true ↔ ∃ k, 0 < (m.cpu k).holders

variable {code : Guarded σ ι ρ ℓ} {clients : Clients γ ι ρ} {m m' : Machine κ σ γ ι ρ ℓ} {k : κ}
  {cpu : Cpu ι ρ ℓ}

theorem Masked.of_interruptible {flag : Bool} {p : Phase ι ρ ℓ} (hp : p.interruptible = true) :
    Masked code flag p := by
  constructor
  · cases p <;> simp_all [Phase.interruptible, Phase.waits]
  · simp [hp]

theorem Masked.of_off {p : Phase ι ρ ℓ} : Masked code false p := ⟨fun _ => rfl, fun _ _ => rfl⟩

omit [DecidableEq κ] in
theorem Machine.Start.guards (h : m.Start) : Guards code m := by
  have hnone : ∀ k, (m.cpu k).holders = 0 := by
    intro k
    simp [Cpu.holders, Cpu.contexts, h.outside k, Phase.holds]
  refine ⟨fun k => ?_, fun k => ?_, fun k k' hk => ?_, ?_⟩
  · obtain ⟨hrunning, hsuspended⟩ := h.outside k
    constructor
    · rw [hrunning]
      exact .of_interruptible rfl
    · simp [hsuspended]
  · simp [hnone k]
  · simp [hnone k] at hk
  · simp [h.free, hnone]

theorem masked_update (h : Guards code m) (hcpu : cpu.AllMasked code) (j : κ) :
    (Function.update m.cpu k cpu j).AllMasked code := by
  by_cases hj : j = k
  · cases hj
    simpa using hcpu
  · simpa [hj] using h.masked j

theorem Guards.keep (h : Guards code m) (hcpu : cpu.AllMasked code)
    (hm : m'.cpu = Function.update m.cpu k cpu) (hholders : cpu.holders = (m.cpu k).holders)
    (hbit : m'.dwState.testBit 0 = m.dwState.testBit 0) : Guards code m' := by
  have hsame : ∀ j, (m'.cpu j).holders = (m.cpu j).holders := by
    intro j
    rw [hm]
    by_cases hj : j = k
    · cases hj
      simpa using hholders
    · simp [hj]
  refine ⟨fun j => ?_, fun j => ?_, fun j j' hj hj' => ?_, ?_⟩
  · rw [hm]
    exact masked_update h hcpu j
  · rw [hsame]
    exact h.one j
  · rw [hsame] at hj hj'
    exact h.alone j j' hj hj'
  · simp only [hbit, hsame]
    exact h.bit

omit [DecidableEq κ] in
theorem Guards.none_of_free (h : Guards code m) (hfree : m.dwState.testBit 0 = false) (j : κ) :
    (m.cpu j).holders = 0 := by
  by_contra hj
  rw [h.bit.mpr ⟨j, Nat.pos_of_ne_zero hj⟩] at hfree
  cases hfree

theorem Guards.take (h : Guards code m) (hcpu : cpu.AllMasked code)
    (hm : m'.cpu = Function.update m.cpu k cpu) (hholders : cpu.holders = (m.cpu k).holders + 1)
    (hfree : m.dwState.testBit 0 = false) (hbit : m'.dwState = m.dwState ||| 1) :
    Guards code m' := by
  have hnone := h.none_of_free hfree
  have hone : (m'.cpu k).holders = 1 := by simp [hm, hholders, hnone k]
  have hothers : ∀ j, j ≠ k → (m'.cpu j).holders = 0 := by
    intro j hj
    rw [hm, Function.update_of_ne hj]
    exact hnone j
  have honly : ∀ j, 0 < (m'.cpu j).holders → j = k := by
    intro j hj
    by_contra hne
    rw [hothers j hne] at hj
    cases hj
  refine ⟨fun j => ?_, fun j => ?_, fun j j' hj hj' => ?_, ?_⟩
  · rw [hm]
    exact masked_update h hcpu j
  · by_cases hj : j = k
    · rw [hj, hone]
    · rw [hothers j hj]
      exact Nat.zero_le 1
  · rw [honly j hj, honly j' hj']
  · have hset : m'.dwState.testBit 0 = true := by simp [hbit]
    exact iff_of_true hset ⟨k, by rw [hone]; exact Nat.one_pos⟩

theorem Guards.free (h : Guards code m) (hcpu : cpu.AllMasked code)
    (hm : m'.cpu = Function.update m.cpu k cpu) (hholders : (m.cpu k).holders = cpu.holders + 1)
    (hbit : m'.dwState = 0) : Guards code m' := by
  have hnone : ∀ j, (m'.cpu j).holders = 0 := by
    intro j
    rw [hm]
    by_cases hj : j = k
    · cases hj
      rw [Function.update_self]
      have := h.one k
      omega
    · rw [Function.update_of_ne hj]
      by_contra hother
      exact hj (h.alone j k (Nat.pos_of_ne_zero hother) (by omega))
  refine ⟨fun j => ?_, fun j => ?_, fun j j' hj => ?_, ?_⟩
  · rw [hm]
    exact masked_update h hcpu j
  · rw [hnone j]
    exact Nat.zero_le 1
  · rw [hnone j] at hj
    cases hj
  · simp [hbit, hnone]

theorem Guards.move {flag flag' : Bool} {p q : Phase ι ρ ℓ} {below : List (Bool × Phase ι ρ ℓ)}
    (h : Guards code m) (hcpu : m.cpu k = ⟨flag, p, below⟩)
    (hm : m'.cpu = Function.update m.cpu k ⟨flag', q, below⟩) (hq : Masked code flag' q)
    (hholds : q.holds = p.holds) (hbit : m'.dwState.testBit 0 = m.dwState.testBit 0) :
    Guards code m' := by
  have hk := h.masked k
  rw [hcpu] at hk
  have hmasked : (Cpu.mk flag' q below).AllMasked code := ⟨hq, hk.suspended⟩
  exact h.keep hmasked hm (by simp [hcpu, Cpu.holders_mk, hholds]) hbit

theorem Guards.push {flag flag' : Bool} {p : Phase ι ρ ℓ} {below : List (Bool × Phase ι ρ ℓ)}
    (h : Guards code m) (hcpu : m.cpu k = ⟨flag, p, below⟩) :
    Guards code (m.put k ⟨flag', .outside, (flag, p) :: below⟩) := by
  have hk := h.masked k
  rw [hcpu] at hk
  have hmasked : (Cpu.mk flag' .outside ((flag, p) :: below)).AllMasked code := by
    refine ⟨.of_interruptible rfl, fun x hx => ?_⟩
    cases List.mem_cons.mp hx with
    | inl hhead =>
      rw [hhead]
      exact hk.running
    | inr hbelow => exact hk.suspended x hbelow
  exact h.keep hmasked rfl (by simp [hcpu, Cpu.holders_mk, List.countP_cons, Phase.holds]) rfl

theorem Guards.step (h : Guards code m) (hstep : Step code clients k m m') : Guards code m' := by
  have hk := h.masked k
  cases hstep with
  | call flag c client below hcpu hc => exact h.move hcpu rfl (.of_interruptible rfl) rfl rfl
  | early flag c r below hcpu hearly => exact h.move hcpu rfl (.of_interruptible rfl) rfl rfl
  | proceed flag c below hcpu hearly => exact h.move hcpu rfl (.of_interruptible rfl) rfl rfl
  | cli flag c below hcpu => exact h.move hcpu rfl .of_off rfl rfl
  | btsTaken flag c below hcpu hbit =>
    rw [hcpu] at hk
    have hoff : flag = false := hk.running.waiting rfl
    cases hoff
    exact h.move hcpu rfl .of_off rfl (by simp [hbit])
  | btsFree flag c below hcpu hbit =>
    rw [hcpu] at hk
    have hoff : flag = false := hk.running.waiting rfl
    cases hoff
    have hmasked : (Cpu.mk false (.holding c (code.enter c)) below).AllMasked code :=
      ⟨.of_off, hk.suspended⟩
    exact h.take hmasked rfl (by simp [hcpu, Cpu.holders_mk, Phase.holds]) hbit rfl
  | testTaken => exact h
  | testFree flag c below hcpu hbit =>
    rw [hcpu] at hk
    have hoff : flag = false := hk.running.waiting rfl
    cases hoff
    exact h.move hcpu rfl .of_off rfl rfl
  | micro flag c l l' shared below hcpu hmicro =>
    rw [hcpu] at hk
    refine h.move hcpu rfl ⟨fun hwaits => ?_, fun hsingle _ => hk.running.single hsingle rfl⟩ rfl rfl
    cases hwaits
  | answer flag c l r shared below hcpu hmicro =>
    rw [hcpu] at hk
    refine h.move hcpu rfl ⟨fun hwaits => ?_, fun hsingle _ => hk.running.single hsingle rfl⟩ rfl rfl
    cases hwaits
  | nested flag flag' c l below hcpu hnests =>
    refine h.move hcpu rfl ⟨fun hwaits => ?_, fun hsingle => ?_⟩ rfl rfl
    · cases hwaits
    · rw [hsingle l] at hnests
      cases hnests
  | clear flag c r below hcpu =>
    rw [hcpu] at hk
    have hmasked : (Cpu.mk flag (.sti c r) below).AllMasked code := by
      refine ⟨⟨fun hwaits => ?_, fun hsingle _ => hk.running.single hsingle rfl⟩, hk.suspended⟩
      cases hwaits
    exact h.free hmasked rfl (by simp [hcpu, Cpu.holders_mk, Phase.holds]) rfl
  | sti flag c r below hcpu => exact h.move hcpu rfl (.of_interruptible rfl) rfl rfl
  | elsewhere flag flag' below hcpu => exact h.move hcpu rfl (.of_interruptible rfl) rfl rfl
  | interrupt p below hcpu => exact h.push hcpu
  | exception flag flag' p below hcpu hgate => exact h.push hcpu
  | iret flag saved p below hcpu =>
    rw [hcpu] at hk
    have hmasked : (Cpu.mk saved p below).AllMasked code :=
      ⟨hk.suspended (saved, p) List.mem_cons_self, fun x hx =>
        hk.suspended x (List.mem_cons_of_mem _ hx)⟩
    exact h.keep hmasked rfl (by simp [hcpu, Cpu.holders_mk, List.countP_cons, Phase.holds]) rfl

theorem guards_of_run (hrun : Run (AnyStep code clients) m m') (h : Guards code m) :
    Guards code m' :=
  Run.invariant (fun _ _ hs ⟨_, hstep⟩ => hs.step hstep) hrun h

omit [DecidableEq κ] in
/-- With a running holder no other context holds the lock. -/
theorem Guards.sole {flag : Bool} {p : Phase ι ρ ℓ} {below : List (Bool × Phase ι ρ ℓ)}
    (h : Guards code m) (hcpu : m.cpu k = ⟨flag, p, below⟩) (hp : p.holds = true) :
    (∀ j, j ≠ k → ∀ q ∈ (m.cpu j).contexts, q.holds = false) ∧
      ∀ q ∈ below.map Prod.snd, q.holds = false := by
  have hone := h.one k
  have hpos : 0 < (m.cpu k).holders := by simp [hcpu, Cpu.holders_mk, hp]
  constructor
  · intro j hj q hq
    rw [← Bool.not_eq_true]
    intro hholds
    exact hj (h.alone j k (Cpu.holders_pos.mpr ⟨q, hq, hholds⟩) hpos)
  · intro q hq
    rw [← Bool.not_eq_true]
    intro hholds
    have hbelow : 0 < (below.map Prod.snd).countP Phase.holds :=
      List.countP_pos_iff.mpr ⟨q, hq, hholds⟩
    rw [hcpu, Cpu.holders_mk, if_pos hp] at hone
    omega

theorem meet_at_lock (hstart : m.Start) {j k : κ} (hjk : j ≠ k) {c c' : ι} {client client' : γ}
    (hc : clients.issue m.client c = some client)
    (hc' : clients.issue client c' = some client') (hearly : code.early c m.shared = none)
    (hearly' : code.early c' m.shared = none) :
    ∃ m', Run (AnyStep code clients) m m' ∧
      m'.cpu j = ⟨false, .holding c (code.enter c), []⟩ ∧
      m'.cpu k = ⟨false, .spinWaitLock c', []⟩ := by
  have hcpu : ∀ i, m.cpu i = ⟨(m.cpu i).interruptFlag, .outside, []⟩ := by
    intro i
    obtain ⟨hrunning, hsuspended⟩ := hstart.outside i
    rw [← hrunning, ← hsuspended]
  have hfree : m.dwState.testBit 0 = false := by simp [hstart.free]
  refine ⟨_, ((((((((Relation.ReflTransGen.single ⟨j, .call m _ c client [] (hcpu j) hc⟩).tail
    ⟨j, .proceed _ _ c [] (by simp; rfl) hearly⟩).tail
    ⟨j, .cli _ _ c [] (by simp; rfl)⟩).tail
    ⟨j, .btsFree _ false c [] (by simp) hfree⟩).tail
    ⟨k, .call _ _ c' client' [] (by simpa [hjk.symm] using hcpu k) hc'⟩).tail
    ⟨k, .proceed _ _ c' [] (by simp; rfl) hearly'⟩).tail
    ⟨k, .cli _ _ c' [] (by simp; rfl)⟩).tail
    ⟨k, .btsTaken _ false c' [] (by simp) (by simp)⟩), ?_, ?_⟩
  · simp [hjk]
  · simp

/-- Mutual exclusion. The lock's bit is set exactly while some context is between its `BTS` and
the clearing, running or with interrupts, exceptions and NMIs on top of it, and there is one such
context on all processors together. Whoever waits for the lock has maskable interrupts off, and
so has everybody behind `CLI` where the guarded part takes no other lock. -/
theorem one_holder (hstart : m.Start) (hrun : Run (AnyStep code clients) m m') :
    (m'.dwState.testBit 0 = true ↔ ∃ k, 0 < (m'.cpu k).holders) ∧
    (∀ k, (m'.cpu k).holders ≤ 1) ∧
    (∀ k k', 0 < (m'.cpu k).holders → 0 < (m'.cpu k').holders → k = k') ∧
    ∀ k, Masked code (m'.cpu k).interruptFlag (m'.cpu k).running := by
  have h := guards_of_run hrun hstart.guards
  exact ⟨h.bit, h.one, h.alone, fun k => (h.masked k).running⟩

/-- `Krnlmeltdown` from its lock on, which it keeps: `RaiseGlobalNonmaskableInterrupt` takes and
releases `sg_NmiSpinlock`. -/
def krnlmeltdownCode : Guarded Bool Unit Empty Unit :=
  { early := fun _ _ => none
    enter := fun c => c
    micro := fun l _ => (.inl l, true)
    nests := fun _ => true }

def anyMeltdown : Clients Unit Unit Empty := ⟨fun _ _ => some (), fun _ _ r => r.elim⟩

def twoMeltdowns : Machine Bool Bool Unit Unit Empty Unit :=
  { dwState := 0
    shared := false
    client := ()
    cpu := fun _ => ⟨true, .outside, []⟩ }

theorem twoMeltdowns_start : twoMeltdowns.Start := ⟨rfl, fun _ => ⟨rfl, rfl⟩⟩

/-- The holder's inner release lets an interrupt through, and an NMI comes on top of the waiter. -/
theorem twoMeltdowns_meet : ∃ m', Run (AnyStep krnlmeltdownCode anyMeltdown) twoMeltdowns m' ∧
    m'.cpu false = ⟨false, .outside, [(true, .holding () ())]⟩ ∧
    m'.cpu true = ⟨false, .outside, [(false, .spinWaitLock ())]⟩ := by
  obtain ⟨m', hrun, hholder, hwaiter⟩ : ∃ m',
      Run (AnyStep krnlmeltdownCode anyMeltdown) twoMeltdowns m' ∧
      m'.cpu false = ⟨false, .holding () (), []⟩ ∧ m'.cpu true = ⟨false, .spinWaitLock (), []⟩ :=
    meet_at_lock twoMeltdowns_start (by decide) rfl rfl rfl rfl
  refine ⟨_, ((hrun.tail ⟨false, .nested m' false true () () [] hholder rfl⟩).tail
    ⟨false, .interrupt _ (.holding () ()) [] (by simp)⟩).tail
    ⟨true, .exception _ false false (.spinWaitLock ()) [] (by simpa using hwaiter) (by simp)⟩, ?_, ?_⟩
  · simp
  · simp

theorem one_holder_twoMeltdowns : ∃ m', Run (AnyStep krnlmeltdownCode anyMeltdown) twoMeltdowns m' ∧
    m'.dwState.testBit 0 = true ∧ (m'.cpu true).holders = 0 := by
  obtain ⟨m', hrun, hholder, -⟩ := twoMeltdowns_meet
  obtain ⟨hbit, -, halone, -⟩ := one_holder twoMeltdowns_start hrun
  have hheld : 0 < (m'.cpu false).holders := by
    simp [hholder, Cpu.holders_mk, Phase.holds]
  refine ⟨m', hrun, hbit.mpr ⟨false, hheld⟩, ?_⟩
  by_contra hother
  have hsame := halone false true hheld (Nat.pos_of_ne_zero hother)
  cases hsame

/-- `SetInterruptHandler` for one processor: a store under its `IntmodSpinlock`. -/
def handlerCode : Guarded (Nat → Option Nat) (Nat × Option Nat) Unit (Nat × Option Nat) :=
  { early := fun _ _ => none
    enter := fun c => c
    micro := fun c handlers => (.inr (), Function.update handlers c.1 c.2)
    nests := fun _ => false }

def anyCaller : Clients Unit (Nat × Option Nat) Unit := ⟨fun _ _ => some (), fun _ _ _ => ()⟩

def twoProcessors : Machine Bool (Nat → Option Nat) Unit (Nat × Option Nat) Unit (Nat × Option Nat) :=
  { dwState := 0
    shared := fun _ => none
    client := ()
    cpu := fun _ => ⟨true, .outside, []⟩ }

theorem twoProcessors_start : twoProcessors.Start := ⟨rfl, fun _ => ⟨rfl, rfl⟩⟩

theorem twoProcessors_meet : ∃ m', Run (AnyStep handlerCode anyCaller) twoProcessors m' ∧
    m'.cpu false = ⟨false, .holding (1, none) (1, none), []⟩ ∧
    m'.cpu true = ⟨false, .spinWaitLock (2, none), []⟩ :=
  meet_at_lock twoProcessors_start (by decide) rfl rfl rfl rfl

theorem run_micro {flag : Bool} {c : ι} {l l' : ℓ} {below : List (Bool × Phase ι ρ ℓ)} {s' : σ}
    (clients : Clients γ ι ρ) (hcpu : m.cpu k = ⟨flag, .holding c l, below⟩)
    (h : code.Reaches l m.shared l' s') :
    Run (AnyStep code clients) m { m.put k ⟨flag, .holding c l', below⟩ with shared := s' } := by
  induction h with
  | refl =>
    have hsame : { m.put k ⟨flag, .holding c l, below⟩ with shared := m.shared } = m := by
      rw [← hcpu]
      simp [Machine.put]
    rw [hsame]
  | tail l₁ l₂ s₁ s₂ _ hmicro ih =>
    have hstep : Step code clients k _ _ := .micro
      { m.put k ⟨flag, .holding c l₁, below⟩ with shared := s₁ } flag c l₁ l₂ s₂ below
      (Function.update_self k _ m.cpu) hmicro
    refine ih.tail ⟨k, ?_⟩
    simpa [Machine.put] using hstep

theorem run_answer {flag : Bool} {c : ι} {l : ℓ} {below : List (Bool × Phase ι ρ ℓ)} {r : ρ} {s' : σ}
    (clients : Clients γ ι ρ) (hcpu : m.cpu k = ⟨flag, .holding c l, below⟩)
    (h : code.Finishes l m.shared r s') :
    Run (AnyStep code clients) m
      { m.put k ⟨flag, .relinquish c r, below⟩ with shared := s' } := by
  obtain ⟨l₁, s₁, hreach, hmicro⟩ := h
  have hstep : Step code clients k _ _ := .answer
    { m.put k ⟨flag, .holding c l₁, below⟩ with shared := s₁ } flag c l₁ r s' below
    (Function.update_self k _ m.cpu) hmicro
  refine (run_micro clients hcpu hreach).tail ⟨k, ?_⟩
  simpa [Machine.put] using hstep

def Machine.Ends (code : Guarded σ ι ρ ℓ) (m : Machine κ σ γ ι ρ ℓ) : Prop :=
  ∀ k c l, .holding c l ∈ (m.cpu k).contexts → ∃ r s', code.Finishes l m.shared r s'

/-- What an interrupt, an exception or an NMI has put on top of the holder makes no call itself. -/
def Machine.Uncovered (m : Machine κ σ γ ι ρ ℓ) : Prop :=
  ∀ k, 0 < (m.cpu k).holders → ∀ p ∈ (m.cpu k).contexts.takeWhile (fun p => !p.holds), p = .outside

omit [DecidableEq κ] in
theorem Machine.Uncovered.split (h : m.Uncovered) (hk : 0 < (m.cpu k).holders) :
    ∃ above p below, (m.cpu k).contexts = above ++ p :: below ∧ p.holds = true ∧
      ∀ q ∈ above, q = .outside := by
  obtain ⟨p, hp, hholds⟩ := Cpu.holders_pos.mp hk
  have hparts : (m.cpu k).contexts.takeWhile (fun p => !p.holds) ++
      (m.cpu k).contexts.dropWhile (fun p => !p.holds) = (m.cpu k).contexts :=
    List.takeWhile_append_dropWhile
  cases hdrop : (m.cpu k).contexts.dropWhile (fun p => !p.holds) with
  | nil =>
    have hnone := List.dropWhile_eq_nil_iff.mp hdrop p hp
    rw [hholds] at hnone
    cases hnone
  | cons q below =>
    have hhead : (!q.holds) = false := by
      have hfirst := List.head?_dropWhile_not (fun p : Phase ι ρ ℓ => !p.holds) (m.cpu k).contexts
      rw [hdrop] at hfirst
      exact hfirst
    rw [hdrop] at hparts
    exact ⟨_, q, below, hparts.symm, by simpa using hhead, h k hk⟩

omit [DecidableEq κ] in
theorem Machine.Uncovered.not_holds (h : m.Uncovered) (hk : (m.cpu k).running ≠ .outside)
    (hholds : (m.cpu k).running.holds = false) : (m.cpu k).holders = 0 := by
  by_contra hne
  refine hk (h k (Nat.pos_of_ne_zero hne) _ ?_)
  rw [Cpu.contexts, List.takeWhile_cons_of_pos (by simp [hholds])]
  exact List.mem_cons_self

theorem run_iret {flag : Bool} {p q : Phase ι ρ ℓ} {above below : List (Phase ι ρ ℓ)}
    {suspended : List (Bool × Phase ι ρ ℓ)} (clients : Clients γ ι ρ) (code : Guarded σ ι ρ ℓ)
    (hcpu : m.cpu k = ⟨flag, p, suspended⟩)
    (hsplit : p :: suspended.map Prod.snd = above ++ q :: below)
    (habove : ∀ x ∈ above, x = .outside) :
    ∃ flag' suspended', Run (AnyStep code clients) m (m.put k ⟨flag', q, suspended'⟩) ∧
      suspended'.map Prod.snd = below := by
  induction above generalizing m flag p suspended with
  | nil =>
    rw [List.nil_append, List.cons.injEq] at hsplit
    obtain ⟨rfl, hbelow⟩ := hsplit
    have hsame : m.put k ⟨flag, p, suspended⟩ = m := by
      rw [← hcpu]
      simp [Machine.put]
    refine ⟨flag, suspended, ?_, hbelow⟩
    rw [hsame]
  | cons x above ih =>
    rw [List.cons_append, List.cons.injEq] at hsplit
    obtain ⟨rfl, hrest⟩ := hsplit
    cases habove p List.mem_cons_self
    cases suspended with
    | nil => simp at hrest
    | cons y suspended =>
      obtain ⟨saved, p'⟩ := y
      have hreturn : Step code clients k m _ := .iret m flag saved p' suspended hcpu
      have hcpu' : (m.put k ⟨saved, p', suspended⟩).cpu k = ⟨saved, p', suspended⟩ :=
        Function.update_self k _ m.cpu
      obtain ⟨flag', suspended', hrun, hbelow⟩ := ih hcpu' hrest fun z hz =>
        habove z (List.mem_cons_of_mem _ hz)
      refine ⟨flag', suspended', (Relation.ReflTransGen.single ⟨k, hreturn⟩).trans ?_, hbelow⟩
      simpa [Machine.put] using hrun

theorem run_clear {flag : Bool} {p : Phase ι ρ ℓ} {below : List (Bool × Phase ι ρ ℓ)}
    (clients : Clients γ ι ρ) (hends : m.Ends code) (hcpu : m.cpu k = ⟨flag, p, below⟩)
    (hp : p.holds = true) :
    ∃ m', Run (AnyStep code clients) m m' ∧ m'.dwState.testBit 0 = false ∧
      ∀ j, j ≠ k → m'.cpu j = m.cpu j := by
  cases p with
  | holding c l =>
    obtain ⟨r, s', hfinish⟩ := hends k c l (by simp [hcpu, Cpu.contexts])
    have hclear : Step code clients k _ _ := .clear
      { m.put k ⟨flag, .relinquish c r, below⟩ with shared := s' } flag c r below
      (Function.update_self k _ m.cpu)
    refine ⟨_, (run_answer clients hcpu hfinish).tail ⟨k, hclear⟩, by simp, fun j hj => ?_⟩
    simp [hj]
  | relinquish c r =>
    have hclear : Step code clients k _ _ := .clear m flag c r below hcpu
    refine ⟨_, Relation.ReflTransGen.single ⟨k, hclear⟩, by simp, fun j hj => ?_⟩
    simp [hj]
  | _ => cases hp

/-- The lock can become free by the steps of the holder's processor alone. -/
theorem run_free (hends : m.Ends code) (h : Guards code m) (huncovered : m.Uncovered)
    (hk : (m.cpu k).holders = 0) :
    ∃ m', Run (AnyStep code clients) m m' ∧ m'.dwState.testBit 0 = false ∧ m'.cpu k = m.cpu k := by
  cases hbit : m.dwState.testBit 0 with
  | false => exact ⟨m, .refl, hbit, rfl⟩
  | true =>
    obtain ⟨j, hj⟩ := h.bit.mp hbit
    have hne : k ≠ j := by
      rintro rfl
      rw [hk] at hj
      cases hj
    obtain ⟨above, p, below, hsplit, hheld, habove⟩ := huncovered.split hj
    obtain ⟨flag, below', hreturns, hbelow⟩ := run_iret clients code rfl hsplit habove
    have hends' : (m.put j ⟨flag, p, below'⟩).Ends code := by
      intro i c l hi
      refine hends i c l ?_
      by_cases hij : i = j
      · cases hij
        rw [hsplit, ← hbelow]
        have hmem : .holding c l ∈ p :: below'.map Prod.snd := by simpa [Cpu.contexts] using hi
        exact List.mem_append_right above hmem
      · simpa [hij] using hi
    obtain ⟨m', hclears, hfree, hsame⟩ := run_clear clients hends'
      (Function.update_self j _ m.cpu) hheld
    refine ⟨m', hreturns.trans hclears, hfree, ?_⟩
    rw [hsame k hne]
    simp [hne]

/-- Whoever waits for the lock can still be let in, however the others stand, unless the holder
itself is kept from going on by a call of its own processor; its call has then the lock to
itself. -/
theorem waiter_let_in (hstart : m.Start) (hrun : Run (AnyStep code clients) m m')
    (hends : m'.Ends code) (huncovered : m'.Uncovered) {flag : Bool} {c : ι}
    {below : List (Bool × Phase ι ρ ℓ)}
    (hwaits : m'.cpu k = ⟨flag, .tryAcquireLock c, below⟩ ∨
      m'.cpu k = ⟨flag, .spinWaitLock c, below⟩) :
    ∃ m'', Run (AnyStep code clients) m' m'' ∧
      m''.cpu k = ⟨flag, .holding c (code.enter c), below⟩ := by
  have h := guards_of_run hrun hstart.guards
  have hout : (m'.cpu k).holders = 0 := by
    cases hwaits with
    | inl htry => exact huncovered.not_holds (by simp [htry]) (by simp [htry, Phase.holds])
    | inr hspin => exact huncovered.not_holds (by simp [hspin]) (by simp [hspin, Phase.holds])
  obtain ⟨m₁, hfirst, hfree, hsame⟩ : ∃ m₁, Run (AnyStep code clients) m' m₁ ∧
      m₁.dwState.testBit 0 = false ∧ m₁.cpu k = m'.cpu k := run_free hends h huncovered hout
  have henter : ∀ m₂ : Machine κ σ γ ι ρ ℓ, m₂.dwState.testBit 0 = false →
      m₂.cpu k = ⟨flag, .tryAcquireLock c, below⟩ → ∃ m₃, Run (AnyStep code clients) m₂ m₃ ∧
      m₃.cpu k = ⟨flag, .holding c (code.enter c), below⟩ := by
    intro m₂ hbit hcpu
    exact ⟨_, Relation.ReflTransGen.single ⟨k, .btsFree m₂ flag c below hcpu hbit⟩, by simp⟩
  cases hwaits with
  | inl htry =>
    obtain ⟨m₃, hrest, hheld⟩ := henter m₁ hfree (hsame.trans htry)
    exact ⟨m₃, hfirst.trans hrest, hheld⟩
  | inr hspin =>
    have htest : m₁.dwState &&& 1 = 0 := by
      rw [Nat.and_one_is_mod]
      simpa [Nat.testBit_zero] using hfree
    have hstep : Step code clients k _ _ := .testFree m₁ flag c below (hsame.trans hspin) htest
    obtain ⟨m₃, hrest, hheld⟩ := henter (m₁.put k ⟨flag, .tryAcquireLock c, below⟩) hfree (by simp)
    exact ⟨m₃, (hfirst.tail ⟨k, hstep⟩).trans hrest, hheld⟩

/-- How far the call of a context has come for everybody else: it takes effect with the last step
of its guarded part. -/
def Phase.standing : Phase ι ρ ℓ → Call ι ρ
  | .outside => .idle
  | .called c => .pending c
  | .cli c => .pending c
  | .tryAcquireLock c => .pending c
  | .spinWaitLock c => .pending c
  | .holding c _ => .pending c
  | .relinquish c r => .done c r
  | .sti c r => .done c r

def Phase.passed : Phase ι ρ ℓ → Option ι
  | .cli c => some c
  | .tryAcquireLock c => some c
  | .spinWaitLock c => some c
  | .holding c _ => some c
  | _ => none

def Machine.objects (m : Machine κ σ γ ι ρ ℓ) (s : σ) : Objects κ σ γ ι ρ :=
  { shared := s
    client := m.client
    calls := fun k => (m.cpu k).contexts.map Phase.standing }

omit [DecidableEq κ] in
@[simp] theorem objects_client (m : Machine κ σ γ ι ρ ℓ) (s : σ) :
    (m.objects s).client = m.client := rfl

omit [DecidableEq κ] in
@[simp] theorem objects_shared (m : Machine κ σ γ ι ρ ℓ) (s : σ) : (m.objects s).shared = s := rfl

/-- The early test had no answer for the contexts that are past it. -/
def PassedEarly (code : Guarded σ ι ρ ℓ) (s : σ) (cpu : Cpu ι ρ ℓ) : Prop :=
  ∀ p ∈ cpu.contexts, ∀ c, p.passed = some c → code.early c s = none

/-- `s` is the shared state without the unfinished part of the holder's call. -/
structure Settled (code : Guarded σ ι ρ ℓ) (m : Machine κ σ γ ι ρ ℓ) (s : σ) : Prop where
  inside : ∀ k c l, .holding c l ∈ (m.cpu k).contexts →
    code.Reaches (code.enter c) s l m.shared
  apart : (∀ k c l, .holding c l ∉ (m.cpu k).contexts) → s = m.shared
  early : ∀ c, code.early c s = code.early c m.shared
  passed : ∀ k, PassedEarly code m.shared (m.cpu k)

/-- The atomic object that the machine stands for. -/
def Linearized (code : Guarded σ ι ρ ℓ) (m : Machine κ σ γ ι ρ ℓ) (a : Objects κ σ γ ι ρ) : Prop :=
  ∃ s, Settled code m s ∧ a = m.objects s

omit [DecidableEq κ] in
theorem Machine.Start.contexts (h : m.Start) (k : κ) : (m.cpu k).contexts = [.outside] := by
  rw [Cpu.contexts, (h.outside k).1, (h.outside k).2, List.map_nil]

omit [DecidableEq κ] in
theorem Machine.Start.settled (code : Guarded σ ι ρ ℓ) (h : m.Start) :
    Settled code m m.shared := by
  refine ⟨fun k c l hk => ?_, fun _ => rfl, fun _ => rfl, fun k p hp c hc => ?_⟩
  · rw [h.contexts, List.mem_singleton] at hk
    cases hk
  · rw [h.contexts, List.mem_singleton] at hp
    rw [hp] at hc
    cases hc

theorem objects_update (s s' : σ) (hm : m'.cpu = Function.update m.cpu k cpu) :
    m'.objects s' = { (m.objects s).put k (cpu.contexts.map Phase.standing) with
      shared := s'
      client := m'.client } := by
  simp only [Machine.objects, Objects.put, Objects.mk.injEq, true_and]
  funext j
  by_cases hj : j = k
  · cases hj
    simp [hm]
  · simp [hm, hj]

theorem objects_stutter (s : σ) (hm : m'.cpu = Function.update m.cpu k cpu)
    (hclient : m'.client = m.client)
    (hsame : cpu.contexts.map Phase.standing = (m.cpu k).contexts.map Phase.standing) :
    m'.objects s = m.objects s := by
  rw [objects_update s s hm, hsame, hclient]
  simp [Machine.objects, Objects.put]

omit [DecidableEq κ] in
theorem PassedEarly.move {s : σ} {flag flag' : Bool} {p q : Phase ι ρ ℓ}
    {below : List (Bool × Phase ι ρ ℓ)} (h : PassedEarly code s ⟨flag, p, below⟩)
    (hq : ∀ c, q.passed = some c → code.early c s = none) :
    PassedEarly code s ⟨flag', q, below⟩ := by
  intro x hx c hc
  cases List.mem_cons.mp hx with
  | inl hhead =>
    rw [hhead] at hc
    exact hq c hc
  | inr hbelow => exact h x (List.mem_cons_of_mem p hbelow) c hc

theorem passed_update {s : σ} (h : Settled code m s) (hm : m'.cpu = Function.update m.cpu k cpu)
    (hcpu : PassedEarly code m.shared cpu) (j : κ) : PassedEarly code m.shared (m'.cpu j) := by
  by_cases hj : j = k
  · cases hj
    simpa [hm] using hcpu
  · simpa [hm, hj] using h.passed j

theorem Settled.keep {s : σ} (h : Settled code m s) (hm : m'.cpu = Function.update m.cpu k cpu)
    (hshared : m'.shared = m.shared)
    (hk : ∀ c l, .holding c l ∈ cpu.contexts ↔ .holding c l ∈ (m.cpu k).contexts)
    (hpassed : PassedEarly code m.shared cpu) : Settled code m' s := by
  have hsame : ∀ j c l, .holding c l ∈ (m'.cpu j).contexts ↔
      .holding c l ∈ (m.cpu j).contexts := by
    intro j c l
    by_cases hj : j = k
    · cases hj
      simpa [hm] using hk c l
    · simp [hm, hj]
  refine ⟨fun j c l hj => ?_, fun hnone => ?_, ?_, ?_⟩
  · rw [hshared]
    exact h.inside j c l ((hsame j c l).mp hj)
  · rw [hshared]
    exact h.apart fun j c l hj => hnone j c l ((hsame j c l).mpr hj)
  · rw [hshared]
    exact h.early
  · rw [hshared]
    exact passed_update h hm hpassed

omit [DecidableEq κ] in
theorem Settled.early_head {s : σ} {flag : Bool} {p : Phase ι ρ ℓ}
    {below : List (Bool × Phase ι ρ ℓ)} (h : Settled code m s) (hcpu : m.cpu k = ⟨flag, p, below⟩) :
    ∀ c, p.passed = some c → code.early c m.shared = none := by
  have hk := h.passed k
  rw [hcpu] at hk
  exact hk p List.mem_cons_self

/-- The running context goes on, without the lock being taken or freed for anybody else. -/
theorem Settled.move {s : σ} {flag flag' : Bool} {p q : Phase ι ρ ℓ}
    {below : List (Bool × Phase ι ρ ℓ)} (h : Settled code m s) (hcpu : m.cpu k = ⟨flag, p, below⟩)
    (hm : m'.cpu = Function.update m.cpu k ⟨flag', q, below⟩) (hshared : m'.shared = m.shared)
    (hholding : ∀ c l, .holding c l = q ↔ .holding c l = p)
    (hq : ∀ c, q.passed = some c → code.early c m.shared = none) : Settled code m' s := by
  have hk := h.passed k
  rw [hcpu] at hk
  exact h.keep hm hshared (by simp [hcpu, Cpu.contexts, hholding]) (hk.move hq)

theorem Settled.unseen {s : σ} {flag flag' : Bool} {p q : Phase ι ρ ℓ}
    {below : List (Bool × Phase ι ρ ℓ)} (h : Settled code m' s)
    (hcpu : m.cpu k = ⟨flag, p, below⟩) (hm : m'.cpu = Function.update m.cpu k ⟨flag', q, below⟩)
    (hclient : m'.client = m.client) (hsame : q.standing = p.standing) :
    Linearized code m' (m.objects s) :=
  ⟨s, h, (objects_stutter s hm hclient (by simp [hcpu, Cpu.contexts, hsame])).symm⟩

theorem Settled.take {flag : Bool} {c : ι} {below : List (Bool × Phase ι ρ ℓ)} {s : σ}
    (h : Settled code m s) (hnone : ∀ j c l, .holding c l ∉ (m.cpu j).contexts)
    (hcpu : m.cpu k = ⟨flag, .tryAcquireLock c, below⟩)
    (hm : m'.cpu = Function.update m.cpu k ⟨flag, .holding c (code.enter c), below⟩)
    (hshared : m'.shared = m.shared) : Settled code m' s := by
  have hk := h.passed k
  have hstack := hnone k
  rw [hcpu] at hk hstack
  refine ⟨fun j c' l hj => ?_, fun hout => ?_, ?_, ?_⟩
  · by_cases hjk : j = k
    · cases hjk
      rw [hm, Function.update_self] at hj
      cases List.mem_cons.mp hj with
      | inl hhead =>
        rw [Phase.holding.injEq] at hhead
        obtain ⟨rfl, rfl⟩ := hhead
        rw [hshared, ← h.apart hnone]
        exact .refl
      | inr hbelow => exact absurd (List.mem_cons_of_mem _ hbelow) (hstack c' l)
    · rw [hm, Function.update_of_ne hjk] at hj
      exact absurd hj (hnone j c' l)
  · exact absurd (by simp [hm, Cpu.contexts]) (hout k c (code.enter c))
  · rw [hshared]
    exact h.early
  · rw [hshared]
    exact passed_update h hm (hk.move fun c' hc' => hk _ List.mem_cons_self c' hc')

theorem Guards.inside_running {flag : Bool} {c c' : ι} {l l' : ℓ} {q : Phase ι ρ ℓ} {j : κ}
    {below : List (Bool × Phase ι ρ ℓ)} (h : Guards code m)
    (hcpu : m.cpu k = ⟨flag, .holding c l, below⟩)
    (hm : m'.cpu = Function.update m.cpu k ⟨flag, q, below⟩)
    (hj : .holding c' l' ∈ (m'.cpu j).contexts) : q = .holding c' l' := by
  obtain ⟨hothers, hbelow⟩ := h.sole hcpu rfl
  by_cases hjk : j = k
  · cases hjk
    rw [hm, Function.update_self] at hj
    cases List.mem_cons.mp hj with
    | inl hhead => exact hhead.symm
    | inr hmem =>
      have hfalse := hbelow _ hmem
      cases hfalse
  · rw [hm, Function.update_of_ne hjk] at hj
    have hfalse := hothers j hjk _ hj
    cases hfalse

theorem Settled.micro {flag : Bool} {c : ι} {l l' : ℓ} {below : List (Bool × Phase ι ρ ℓ)} {s : σ}
    (hstable : code.EarlyStable) (h : Settled code m s) (hguards : Guards code m)
    (hcpu : m.cpu k = ⟨flag, .holding c l, below⟩)
    (hm : m'.cpu = Function.update m.cpu k ⟨flag, .holding c l', below⟩)
    (hmicro : code.micro l m.shared = (.inl l', m'.shared)) : Settled code m' s := by
  have hearly := hstable.of_micro hmicro
  have hk := h.passed k
  rw [hcpu] at hk
  refine ⟨fun j c' l₁ hj => ?_, fun hout => ?_, fun c' => ?_, fun j p hp c' hc' => ?_⟩
  · have hsame := hguards.inside_running hcpu hm hj
    rw [Phase.holding.injEq] at hsame
    obtain ⟨rfl, rfl⟩ := hsame
    have hinside := h.inside k c l (by simp [hcpu, Cpu.contexts])
    exact .tail l l' m.shared m'.shared hinside hmicro
  · exact absurd (by simp [hm, Cpu.contexts]) (hout k c l')
  · rw [hearly, h.early]
  · rw [hearly]
    have hmoved : PassedEarly code m.shared ⟨flag, .holding c l', below⟩ :=
      hk.move fun c₁ hc₁ => hk _ List.mem_cons_self c₁ hc₁
    exact passed_update h hm hmoved j p hp c' hc'

theorem Settled.answer {flag : Bool} {c : ι} {l : ℓ} {r : ρ} {below : List (Bool × Phase ι ρ ℓ)}
    {s : σ} (hstable : code.EarlyStable) (h : Settled code m s) (hguards : Guards code m)
    (hcpu : m.cpu k = ⟨flag, .holding c l, below⟩)
    (hm : m'.cpu = Function.update m.cpu k ⟨flag, .relinquish c r, below⟩)
    (hmicro : code.micro l m.shared = (.inr r, m'.shared)) :
    Settled code m' m'.shared := by
  have hearly := hstable.of_micro hmicro
  have hk := h.passed k
  rw [hcpu] at hk
  refine ⟨fun j c' l₁ hj => ?_, fun _ => rfl, fun _ => rfl, fun j p hp c' hc' => ?_⟩
  · cases hguards.inside_running hcpu hm hj
  · rw [hearly]
    have hmoved : PassedEarly code m.shared ⟨flag, .relinquish c r, below⟩ :=
      hk.move fun c₁ hc₁ => by cases hc₁
    exact passed_update h hm hmoved j p hp c' hc'

omit [DecidableEq κ] in
theorem Settled.effect {flag : Bool} {c : ι} {l : ℓ} {r : ρ} {below : List (Bool × Phase ι ρ ℓ)}
    {s s' : σ} (h : Settled code m s) (hcpu : m.cpu k = ⟨flag, .holding c l, below⟩)
    (hmicro : code.micro l m.shared = (.inr r, s')) : code.Effect c s r s' := by
  have hk := h.passed k
  rw [hcpu] at hk
  refine Or.inr ⟨?_, l, m.shared, h.inside k c l (by simp [hcpu, Cpu.contexts]), hmicro⟩
  rw [h.early]
  exact hk _ List.mem_cons_self c rfl

omit [DecidableEq κ] in
theorem Guards.nobody_inside (h : Guards code m) (hbit : m.dwState.testBit 0 = false) (j : κ)
    (c : ι) (l : ℓ) : .holding c l ∉ (m.cpu j).contexts := by
  intro hj
  have hpos : 0 < (m.cpu j).holders := Cpu.holders_pos.mpr ⟨_, hj, rfl⟩
  rw [h.none_of_free hbit j] at hpos
  cases hpos

theorem Settled.push {flag flag' : Bool} {p : Phase ι ρ ℓ} {below : List (Bool × Phase ι ρ ℓ)}
    {s : σ} (h : Settled code m s) (hcpu : m.cpu k = ⟨flag, p, below⟩) :
    Settled code (m.put k ⟨flag', .outside, (flag, p) :: below⟩) s := by
  have hk := h.passed k
  rw [hcpu] at hk
  refine h.keep rfl rfl (by simp [hcpu, Cpu.contexts]) fun q hq c hc => ?_
  cases List.mem_cons.mp hq with
  | inl hhead =>
    rw [hhead] at hc
    cases hc
  | inr hbelow => exact hk q hbelow c hc

theorem atomic_push {flag flag' : Bool} {p : Phase ι ρ ℓ} {below : List (Bool × Phase ι ρ ℓ)}
    (clients : Clients γ ι ρ) (s : σ) (hcpu : m.cpu k = ⟨flag, p, below⟩) :
    AtomicStep clients code.Effect (m.objects s)
      ((m.objects s).put k
        ((Cpu.mk flag' .outside ((flag, p) :: below)).contexts.map Phase.standing)) := by
  have hstep : AtomicStep clients code.Effect (m.objects s)
      ((m.objects s).put k (.idle :: (m.objects s).calls k)) :=
    AtomicStep.interrupt (m.objects s) k
  simpa [Machine.objects, hcpu, Cpu.contexts, Phase.standing] using hstep

/-- Each instruction is nothing to the atomic object, or one step of it; an early answer is two. -/
theorem linearized_step {a : Objects κ σ γ ι ρ} (hstable : code.EarlyStable) (h : Guards code m)
    (hlin : Linearized code m a) (hstep : Step code clients k m m') :
    ∃ a', Run (AtomicStep clients code.Effect) a a' ∧ Linearized code m' a' := by
  obtain ⟨s, hs, rfl⟩ := hlin
  have hseen : ∀ cpu s', m'.cpu = Function.update m.cpu k cpu → Settled code m' s' →
      Run (AtomicStep clients code.Effect) (m.objects s)
        { (m.objects s).put k (cpu.contexts.map Phase.standing) with
          shared := s'
          client := m'.client } →
      ∃ a', Run (AtomicStep clients code.Effect) (m.objects s) a' ∧ Linearized code m' a' := by
    intro cpu s' hm hsettled hrun
    rw [← objects_update s s' hm] at hrun
    exact ⟨_, hrun, s', hsettled, rfl⟩
  have hcalls : ∀ flag p below, m.cpu k = ⟨flag, p, below⟩ →
      (m.objects s).calls k = p.standing :: (below.map Prod.snd).map Phase.standing := by
    intro flag p below hcpu
    simp [Machine.objects, hcpu, Cpu.contexts]
  cases hstep with
  | call flag c client below hcpu hc =>
    refine hseen ⟨flag, .called c, below⟩ s rfl ?_ (Relation.ReflTransGen.single ?_)
    · exact hs.move hcpu rfl rfl (by simp) (by simp [Phase.passed])
    · exact .issue _ k c client _ (hcalls _ _ _ hcpu) hc
  | early flag c r below hcpu hearly =>
    have heffect : code.Effect c s r s := Or.inl ⟨(hs.early c).trans hearly, rfl⟩
    have hanswer : AtomicStep clients code.Effect (m.objects s) _ :=
      .answer _ k c r s ((below.map Prod.snd).map Phase.standing) (hcalls _ _ _ hcpu) heffect
    have hreceive : AtomicStep clients code.Effect _ _ := .receive
      { (m.objects s).put k (.done c r :: (below.map Prod.snd).map Phase.standing) with
        shared := s } k c r ((below.map Prod.snd).map Phase.standing) (by simp [Objects.put])
    refine hseen ⟨flag, .outside, below⟩ s rfl ?_ ?_
    · exact hs.move hcpu rfl rfl (by simp) (by simp [Phase.passed])
    · have hrun := (Relation.ReflTransGen.single hanswer).tail hreceive
      simpa [Objects.put, Cpu.contexts, Phase.standing] using hrun
  | proceed flag c below hcpu hearly =>
    refine ⟨_, .refl, Settled.unseen (hs.move hcpu rfl rfl (by simp) fun c' hc' => ?_) hcpu rfl
      rfl rfl⟩
    cases hc'
    exact hearly
  | cli flag c below hcpu =>
    refine ⟨_, .refl, Settled.unseen (hs.move hcpu rfl rfl (by simp) ?_) hcpu rfl rfl rfl⟩
    exact fun c' hc' => hs.early_head hcpu c' hc'
  | btsTaken flag c below hcpu hbit =>
    refine ⟨_, .refl, Settled.unseen (hs.move hcpu rfl rfl (by simp) ?_) hcpu rfl rfl rfl⟩
    exact fun c' hc' => hs.early_head hcpu c' hc'
  | btsFree flag c below hcpu hbit =>
    have hnobody := h.nobody_inside hbit
    exact ⟨_, .refl, Settled.unseen (hs.take hnobody hcpu rfl rfl) hcpu rfl rfl rfl⟩
  | testTaken flag c below hcpu hbit => exact ⟨_, .refl, s, hs, rfl⟩
  | testFree flag c below hcpu hbit =>
    refine ⟨_, .refl, Settled.unseen (hs.move hcpu rfl rfl (by simp) ?_) hcpu rfl rfl rfl⟩
    exact fun c' hc' => hs.early_head hcpu c' hc'
  | micro flag c l l' shared below hcpu hmicro =>
    exact ⟨_, .refl, Settled.unseen (hs.micro hstable h hcpu rfl hmicro) hcpu rfl rfl rfl⟩
  | answer flag c l r shared below hcpu hmicro =>
    refine hseen ⟨flag, .relinquish c r, below⟩ shared rfl ?_ (Relation.ReflTransGen.single ?_)
    · exact hs.answer hstable h hcpu rfl hmicro
    · have heffect : code.Effect c s r shared := hs.effect hcpu hmicro
      exact .answer _ k c r shared _ (hcalls _ _ _ hcpu) heffect
  | nested flag flag' c l below hcpu hnests =>
    refine ⟨_, .refl, Settled.unseen (hs.move hcpu rfl rfl (by simp) ?_) hcpu rfl rfl rfl⟩
    exact fun c' hc' => hs.early_head hcpu c' hc'
  | clear flag c r below hcpu =>
    refine ⟨_, .refl, Settled.unseen (hs.move hcpu rfl rfl (by simp) ?_) hcpu rfl rfl rfl⟩
    exact fun _ hc' => nomatch hc'
  | sti flag c r below hcpu =>
    refine hseen ⟨true, .outside, below⟩ s rfl ?_ (Relation.ReflTransGen.single ?_)
    · exact hs.move hcpu rfl rfl (by simp) (by simp [Phase.passed])
    · exact .receive _ k c r _ (hcalls _ _ _ hcpu)
  | elsewhere flag flag' below hcpu =>
    refine ⟨_, .refl, Settled.unseen (hs.move hcpu rfl rfl (by simp) ?_) hcpu rfl rfl rfl⟩
    exact fun _ hc' => nomatch hc'
  | interrupt p below hcpu =>
    refine hseen ⟨false, .outside, (true, p) :: below⟩ s rfl (hs.push hcpu) ?_
    exact Relation.ReflTransGen.single (atomic_push clients s hcpu)
  | exception flag flag' p below hcpu hgate =>
    refine hseen ⟨flag', .outside, (flag, p) :: below⟩ s rfl (hs.push hcpu) ?_
    exact Relation.ReflTransGen.single (atomic_push clients s hcpu)
  | iret flag saved p below hcpu =>
    have hk := hs.passed k
    rw [hcpu] at hk
    refine hseen ⟨saved, p, below⟩ s rfl ?_ (Relation.ReflTransGen.single ?_)
    · exact hs.keep rfl rfl (by simp [hcpu, Cpu.contexts]) fun q hq c hc =>
        hk q (List.mem_cons_of_mem _ hq) c hc
    · exact .iret _ k _ (hcalls _ _ _ hcpu)

theorem linearized_of_run (hstable : code.EarlyStable) (hstart : m.Start)
    (hrun : Run (AnyStep code clients) m m') :
    ∃ s, Settled code m' s ∧
      Run (AtomicStep clients code.Effect) (m.objects m.shared) (m'.objects s) := by
  have hfirst : Linearized code m (m.objects m.shared) := ⟨m.shared, hstart.settled code, rfl⟩
  obtain ⟨a, hatomic, s, hs, rfl⟩ := Run.simulates
    (fun _ _ hi ⟨_, hstep⟩ => Guards.step hi hstep)
    (fun _ _ _ hi hlin ⟨_, hstep⟩ => linearized_step hstable hi hlin hstep)
    hrun hstart.guards hfirst
  exact ⟨s, hs, hatomic⟩

omit [DecidableEq κ] in
theorem Settled.of_free {s : σ} (hs : Settled code m s) (h : Guards code m)
    (hbit : m.dwState.testBit 0 = false) : s = m.shared :=
  hs.apart (h.nobody_inside hbit)

/-- Linearisability. However the instructions of the processors and their interrupts interleave,
what the callers learn and where their calls stand is a run of the atomic object, whose state is
the shared one whenever the lock is free. -/
theorem run_linearized (hstable : code.EarlyStable) (hstart : m.Start)
    (hrun : Run (AnyStep code clients) m m') :
    ∃ s, Run (AtomicStep clients code.Effect) (m.objects m.shared) (m'.objects s) ∧
      (m'.dwState.testBit 0 = false → s = m'.shared) := by
  obtain ⟨s, hs, hatomic⟩ := linearized_of_run hstable hstart hrun
  exact ⟨s, hatomic, hs.of_free (guards_of_run hrun hstart.guards)⟩

theorem run_linearized_twoProcessors : ∃ m' s,
    Run (AnyStep handlerCode anyCaller) twoProcessors m' ∧
    Run (AtomicStep anyCaller handlerCode.Effect) (twoProcessors.objects twoProcessors.shared)
      (m'.objects s) ∧
    (m'.objects s).calls false = [.pending (1, none)] := by
  obtain ⟨m', hrun, hholder, -⟩ := twoProcessors_meet
  obtain ⟨s, hatomic, -⟩ := run_linearized (fun _ _ _ => rfl) twoProcessors_start hrun
  exact ⟨m', s, hrun, hatomic, by simp [Machine.objects, hholder, Cpu.contexts, Phase.standing]⟩

end Ych.SpinlockProtocol
