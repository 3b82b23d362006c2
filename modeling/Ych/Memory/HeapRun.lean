import Mathlib.Data.List.Pairwise
import Ych.Memory.HeapOps
import Ych.Memory.VmRegionList

/-! Runs of the kernel heap: as long as no rounding and no slack wraps around and no
back-offset is cut off, the live extents are apart from each other and from every header. -/
namespace Ych.Krnlheap
open Words Bitmap ByteMemory Krnlmem Virtmemmgmt Runs Allocations

variable {s s' : HeapState} {m m' : Bytes} {hs : List Nat} {n alignment : Nat}

structure HeapSystem where
  heap : HeapState
  live : List Extent

/-- The block the pointer is in, if any, has its header less than 64 KiB below. -/
def RelinquishSafe (m : Bytes) (hs : List Nat) (p : Nat) : Prop :=
  ∀ h ∈ hs, h + SIZEOF_HEADER ≤ p → p < blockEnd (header m) h → p - h < 2 ^ 16

/-- A safe call, or a write that stays out of the heap's bytes nobody holds. -/
inductive HeapStep : HeapSystem → HeapSystem → Prop where
  | acquire (x : HeapSystem) (hs : List Nat) (n alignment p : Nat) (s' : HeapState)
      (hrow : Row x.heap hs) (ha : IsPowerOfTwo alignment) (h32 : alignment < 2 ^ 32)
      (hsafe : AcquireSafe x.heap.mem hs n alignment)
      (hcall : heapAlignedAcquire x.heap n alignment = some (p, s')) :
      HeapStep x ⟨s', if p = 0 then x.live else ⟨p, n⟩ :: x.live⟩
  | relinquish (x : HeapSystem) (hs : List Nat) (e : Extent) (ok : Bool) (s' : HeapState)
      (hrow : Row x.heap hs) (he : e ∈ x.live) (hsafe : RelinquishSafe x.heap.mem hs e.start)
      (hcall : heapRelinquish x.heap e.start = some (ok, s')) :
      HeapStep x ⟨s', x.live.erase e⟩
  | write (x : HeapSystem) (m' : Bytes)
      (h : ∀ i, HEAP_ST ≤ i → i < HEAP_ND → (∀ e ∈ x.live, i < e.start ∨ e.stop ≤ i) →
        m' i = x.heap.mem i) : HeapStep x ⟨{ x.heap with mem := m' }, x.live⟩

/-- Every live extent has a block of its own. -/
structure HeapInv (x : HeapSystem) (hs : List Nat) (home : Extent → Nat) : Prop where
  row : Row x.heap hs
  housed : ∀ e ∈ x.live, Housed x.heap.mem hs e (home e)
  own : x.live.Pairwise fun e f => home e ≠ home f

variable {x y : HeapSystem} {home : Extent → Nat} {e f : Extent} {h p : Nat}

theorem HeapInv.sound (hinv : HeapInv x hs home) : Sound HEAP_ST HEAP_ND x.live := by
  have hB := hinv.row.blocks
  refine ⟨fun e he => (hinv.housed e he).within hB, ?_⟩
  exact hinv.own.imp_of_mem fun he hf hne => (hinv.housed _ he).apart hB (hinv.housed _ hf) hne

theorem HeapInv.clear (hinv : HeapInv x hs home) (he : e ∈ x.live) :
    ∀ h ∈ hs, Clear h e.start e.stop :=
  (hinv.housed e he).clear hinv.row.blocks

theorem Housed.apart_self (he : Housed m hs e h) : ¬e.Apart e := by
  have hpos := he.nonempty
  unfold Extent.Apart Extent.stop
  omega

theorem HeapInv.acquire {hs' : List Nat} (hinv : HeapInv x hs home)
    (hg : Granted x.heap s' hs hs' alignment h e) :
    HeapInv ⟨s', e :: x.live⟩ hs' (Function.update home e h) ∧ ∀ f ∈ x.live, e.Apart f := by
  have hother : ∀ f ∈ x.live, home f ≠ h := fun f hf heq =>
    hg.free (heq ▸ (hinv.housed f hf).taken)
  have hkept : ∀ f ∈ x.live, Housed s'.mem hs' f (home f) := fun f hf =>
    hg.kept f (home f) (hother f hf) (hinv.housed f hf)
  have hapart : ∀ f ∈ x.live, e.Apart f := fun f hf =>
    hg.housed.apart hg.row.blocks (hkept f hf) (hother f hf).symm
  have hne : ∀ f ∈ x.live, f ≠ e := fun f hf heq => hg.housed.apart_self (heq ▸ hapart f hf)
  have hhome : ∀ f ∈ x.live, Function.update home e h f = home f := fun f hf =>
    Function.update_of_ne (hne f hf) h home
  refine ⟨⟨hg.row, fun f hf => ?_, List.pairwise_cons.mpr ⟨fun f hf => ?_, ?_⟩⟩, hapart⟩
  · rcases List.mem_cons.mp hf with rfl | hf
    · rw [Function.update_self]
      exact hg.housed
    · rw [hhome f hf]
      exact hkept f hf
  · rw [Function.update_self, hhome f hf]
    exact (hother f hf).symm
  · refine hinv.own.imp_of_mem fun he' hf' hne' => ?_
    rw [hhome _ he', hhome _ hf']
    exact hne'

theorem HeapInv.home_ne (hinv : HeapInv x hs home) (he : e ∈ x.live) (hf : f ∈ x.live)
    (hne : e ≠ f) : home e ≠ home f := by
  have : Std.Symm fun e f => home e ≠ home f := ⟨fun _ _ h => h.symm⟩
  exact hinv.own.forall he hf hne

theorem HeapInv.own_erase (hinv : HeapInv x hs home) (he : e ∈ x.live) :
    ∀ f ∈ x.live.erase e, home f ≠ home e := by
  have hperm := List.perm_cons_erase he
  have hown := (hperm.pairwise_iff fun {_ _} hne => hne.symm).mp hinv.own
  exact fun f hf => ((List.pairwise_cons.mp hown).1 f hf).symm

theorem HeapInv.relinquish {ok : Bool} (hinv : HeapInv x hs home) (he : e ∈ x.live)
    (hsafe : RelinquishSafe x.heap.mem hs e.start)
    (hcall : heapRelinquish x.heap e.start = some (ok, s')) :
    ∃ hs', HeapInv ⟨s', x.live.erase e⟩ hs' home := by
  have hhoused := hinv.housed e he
  have hnear : e.start - home e < 2 ^ 16 := by
    have habove := hhoused.above
    have hbelow := hhoused.below
    have hpos := hhoused.nonempty
    unfold Extent.stop at hbelow
    exact hsafe (home e) hhoused.mem (by omega) (by omega)
  obtain ⟨hs', hrow, hkept⟩ := heapRelinquish_spec hinv.row hhoused hnear hcall
  refine ⟨hs', hrow, fun f hf => ?_, hinv.own.sublist List.erase_sublist⟩
  exact hkept f (home f) (hinv.own_erase he f hf) (hinv.housed f (List.mem_of_mem_erase hf))

theorem HeapInv.write (hinv : HeapInv x hs home)
    (h : ∀ i, HEAP_ST ≤ i → i < HEAP_ND → (∀ e ∈ x.live, i < e.start ∨ e.stop ≤ i) →
      m' i = x.heap.mem i) : HeapInv ⟨{ x.heap with mem := m' }, x.live⟩ hs home := by
  have hB := hinv.row.blocks
  have hsame : ∀ k ∈ hs, header m' k = header x.heap.mem k := by
    intro k hk
    have hin := hB.tiles.within hk
    have hgt := blockEnd_gt (header x.heap.mem) k
    refine header_congr fun i h1 h2 => h i (by omega) (by omega) fun e he => ?_
    have hclear := hinv.clear he k hk
    unfold Clear at hclear
    omega
  refine ⟨⟨hinv.row.root, hB.same hsame, hinv.row.start, hinv.row.stop⟩, fun e he => ?_,
    hinv.own⟩
  have hhoused := hinv.housed e he
  have habove := hhoused.above
  have hbelow := hhoused.below
  have hpos := hhoused.nonempty
  have hin := hB.tiles.within hhoused.mem
  have hhd := hsame _ hhoused.mem
  refine ⟨hhoused.mem, ?_, habove, ?_, hpos, ?_⟩
  · rw [bFree_eq, hhd]
    exact hhoused.taken
  · rw [blockEnd, hhd]
    exact hbelow
  · rw [load_congr, hhoused.offset]
    -- the back-offset is in the extent's own block, and below the extent
    intro i h1 h2
    unfold Extent.stop at hbelow
    refine h i (by omega) (by omega) fun f hf => ?_
    have hf' := hinv.housed f hf
    have habove' := hf'.above
    have hbelow' := hf'.below
    by_cases heq : e = f
    · rw [← heq]
      omega
    · rcases hB.tiles.apart hhoused.mem hf'.mem (hinv.home_ne he hf heq) with hle | hle
      · omega
      · omega

theorem Row.unique {hs' : List Nat} {s : HeapState} (h : Row s hs) (h' : Row s hs') : hs = hs' :=
  h.blocks.tiles.unique h'.blocks.tiles

def HeapOk (x : HeapSystem) : Prop := ∃ hs home, HeapInv x hs home

theorem HeapStep.sound (hok : HeapOk x) (hstep : HeapStep x y) :
    HeapOk y ∧ Run (Allocations.Step HEAP_ST HEAP_ND) x.live y.live := by
  obtain ⟨hs₀, home, hinv⟩ := hok
  cases hstep with
  | acquire hs n alignment p s' hrow ha h32 hsafe hcall =>
    obtain ⟨p', z, hcall', hres⟩ := heapAlignedAcquire_spec hrow ha h32 hsafe
    rw [hcall, Option.some.injEq, Prod.mk.injEq] at hcall'
    obtain ⟨rfl, rfl⟩ := hcall'
    obtain rfl := hrow.unique hinv.row
    rcases hres with ⟨rfl, rfl⟩ | ⟨hp, h, hs', hg⟩
    · exact ⟨⟨hs, home, hinv⟩, Relation.ReflTransGen.refl⟩
    · obtain ⟨hinv', hapart⟩ := hinv.acquire hg
      dsimp only
      rw [if_neg hp]
      have hin := hg.housed.within hg.row.blocks
      exact ⟨⟨hs', _, hinv'⟩, Relation.ReflTransGen.single
        (Allocations.Step.acquire _ _ hin.1 hin.2 hapart)⟩
  | relinquish hs e ok s' hrow he hsafe hcall =>
    obtain rfl := hrow.unique hinv.row
    obtain ⟨hs', hinv'⟩ := hinv.relinquish he hsafe hcall
    exact ⟨⟨hs', home, hinv'⟩, Relation.ReflTransGen.single (Allocations.Step.release _ _)⟩
  | write m' h => exact ⟨⟨hs₀, home, hinv.write h⟩, Relation.ReflTransGen.refl⟩

theorem heapOk_of_run (hok : HeapOk x) (hrun : Run HeapStep x y) :
    HeapOk y ∧ Run (Allocations.Step HEAP_ST HEAP_ND) x.live y.live :=
  ⟨Run.invariant (fun _ _ h hstep => (hstep.sound h).1) hrun hok,
    Run.simulation HeapSystem.live (fun _ _ h hstep => (hstep.sound h).1)
      (fun _ _ h hstep => (hstep.sound h).2) hrun hok⟩

theorem header_root : header (setFree (setPayloadSize (setPrev (setNext m HEAP_ST 0) HEAP_ST 0)
    HEAP_ST (sub64 (sub64 HEAP_ND HEAP_ST) SIZEOF_HEADER)) HEAP_ST 1) HEAP_ST =
      ⟨0, 0, HEAP_ND - HEAP_ST - SIZEOF_HEADER, 1⟩ := by
  rw [header_setFree (by decide), header_setPayloadSize (by decide), header_setPrev (by decide),
    header_setNext (by decide)]
  rfl

theorem blocks_root (hroot : header m HEAP_ST = ⟨0, 0, HEAP_ND - HEAP_ST - SIZEOF_HEADER, 1⟩) :
    Blocks (header m) HEAP_ST HEAP_ND [HEAP_ST] := by
  refine ⟨⟨?_, ?_, trivial⟩, ⟨rfl, ?_⟩, fun h hh => ?_, by decide⟩
  · dsimp only
    rw [hroot]
  · dsimp only
    rw [hroot]
    rfl
  · rw [Tiles, blockEnd, hroot]
    decide
  · rw [List.mem_singleton.mp hh, hroot]
    decide

theorem heapInit_spec {v v' : VmmState} (hinit : heapInit v s = some (true, v', s')) :
    Row s' [HEAP_ST] ∧
      header s'.mem HEAP_ST = ⟨0, 0, HEAP_ND - HEAP_ST - SIZEOF_HEADER, 1⟩ := by
  have hst : KR_MAKE_VIRTUAL KRNL_PML4_IDX KRNL_HEAP_PDPT_IDX 0 0 0 = HEAP_ST := by decide
  have hnd : wrap64 (HEAP_ST + sub64 (KR_MAKE_VIRTUAL KRNL_PML4_IDX KRNL_MMIO_PDPT_IDX 0 0 0)
      HEAP_ST) = HEAP_ND := by decide
  by_cases hi : s.initialized = true
  · rw [heapInit, if_pos hi] at hinit
    exact absurd hinit (by simp)
  · rw [heapInit, if_neg hi] at hinit
    dsimp only at hinit
    rw [hst, hnd] at hinit
    cases hacq : vmAcquireRegion v v.kernelAddressSpace HEAP_ST HEAP_ND
        (VMR_FLAG_READABLE ||| VMR_FLAG_WRITABLE) with
    | none =>
      rw [hacq] at hinit
      exact absurd hinit (by simp)
    | some res =>
      obtain ⟨heapVMR, v₁⟩ := res
      rw [hacq] at hinit
      dsimp only at hinit
      by_cases hvmr : heapVMR = 0
      · rw [if_pos hvmr] at hinit
        exact absurd hinit (by simp)
      · rw [if_neg hvmr, Option.some.injEq, Prod.mk.injEq, Prod.mk.injEq] at hinit
        obtain ⟨_, _, rfl⟩ := hinit
        exact ⟨⟨rfl, blocks_root header_root, rfl, rfl⟩, header_root⟩

theorem heapInit_row {v v' : VmmState} (hinit : heapInit v s = some (true, v', s')) :
    Row s' [HEAP_ST] :=
  (heapInit_spec hinit).1

theorem heapInit_header {v v' : VmmState} (hinit : heapInit v s = some (true, v', s')) :
    header s'.mem HEAP_ST = ⟨0, 0, HEAP_ND - HEAP_ST - SIZEOF_HEADER, 1⟩ :=
  (heapInit_spec hinit).2

def AcquireKept (x : HeapSystem) (n alignment : Nat) : Prop :=
  ∃ p s', heapAlignedAcquire x.heap n alignment = some (p, s') ∧
    (p = 0 ∨ alignment ∣ p ∧ HEAP_ST ≤ p ∧ p + n ≤ HEAP_ND ∧
      (∀ f ∈ x.live, Extent.Apart ⟨p, n⟩ f) ∧
      ∃ hs, Row s' hs ∧ ∀ h ∈ hs, Clear h p (p + n))

theorem HeapInv.acquireKept (hinv : HeapInv x hs home) (ha : IsPowerOfTwo alignment)
    (h32 : alignment < 2 ^ 32) (hsafe : AcquireSafe x.heap.mem hs n alignment) :
    AcquireKept x n alignment := by
  obtain ⟨p, s', hcall, hres⟩ := heapAlignedAcquire_spec hinv.row ha h32 hsafe
  refine ⟨p, s', hcall, ?_⟩
  rcases hres with ⟨hzero, _⟩ | ⟨_, h, hs', hg⟩
  · exact Or.inl hzero
  · obtain ⟨hinv', hapart⟩ := hinv.acquire hg
    have hin := hg.housed.within hg.row.blocks
    exact Or.inr ⟨hg.aligned, hin.1, hin.2, hapart, hs', hg.row,
      hinv'.clear List.mem_cons_self⟩

/-- In every run of safe steps from `HeapInit` the live extents are in the heap, apart from
each other and clear of every header, and a further safe request is answered as expected. -/
theorem heap_sound {v v' : VmmState} (hinit : heapInit v s = some (true, v', s'))
    (hrun : Run HeapStep ⟨s', []⟩ x) :
    Sound HEAP_ST HEAP_ND x.live ∧ ∃ hs, Row x.heap hs ∧
      (∀ e ∈ x.live, ∀ h ∈ hs, Clear h e.start e.stop) ∧
      ∀ n alignment, IsPowerOfTwo alignment → alignment < 2 ^ 32 →
        AcquireSafe x.heap.mem hs n alignment → AcquireKept x n alignment := by
  have hok : HeapOk ⟨s', []⟩ := ⟨[HEAP_ST], fun _ => 0, heapInit_row hinit,
    fun _ he => absurd he List.not_mem_nil, List.Pairwise.nil⟩
  obtain ⟨⟨hs, home, hinv⟩, habs⟩ := heapOk_of_run hok hrun
  exact ⟨run_sound habs Sound.nil, hs, hinv.row, fun e he => hinv.clear he,
    fun n alignment ha h32 hsafe => hinv.acquireKept ha h32 hsafe⟩

def bootVmm : VmmState := { twoRegions with kernelAddressSpace := 1 }

def bootHeap : HeapState := ⟨false, 0, 0, 0, 0, fun _ => 0⟩

def initializedBy (v : VmmState) (s : HeapState) : HeapState :=
  ((heapInit v s).getD (false, v, s)).2.2
def servedBy (s : HeapState) (n : Nat) : HeapState := ((heapAcquire s n).getD (0, s)).2
def givenBack (s : HeapState) (p : Nat) : HeapState := ((heapRelinquish s p).getD (false, s)).2

theorem heapInit_initializedBy {v : VmmState} (hok : (heapInit v s).map Prod.fst = some true) :
    ∃ v', heapInit v s = some (true, v', initializedBy v s) := by
  obtain ⟨⟨_, v', z⟩, hcall, rfl⟩ := Option.map_eq_some_iff.mp hok
  refine ⟨v', ?_⟩
  rw [initializedBy, hcall]
  rfl

theorem heapAcquire_servedBy (hp : (heapAcquire s n).map Prod.fst = some p) :
    heapAcquire s n = some (p, servedBy s n) := by
  obtain ⟨⟨q, z⟩, hcall, rfl⟩ := Option.map_eq_some_iff.mp hp
  rw [servedBy, hcall]
  rfl

theorem heapRelinquish_givenBack {ok : Bool} (hok : (heapRelinquish s p).map Prod.fst = some ok) :
    heapRelinquish s p = some (ok, givenBack s p) := by
  obtain ⟨⟨b, z⟩, hcall, rfl⟩ := Option.map_eq_some_iff.mp hok
  rw [givenBack, hcall]
  rfl

def bootedHeap : HeapState := initializedBy bootVmm bootHeap
def firstServed : HeapState := servedBy bootedHeap 100
def secondServed : HeapState := servedBy firstServed 200
def thirdServed : HeapState := servedBy secondServed 50
def secondGivenBack : HeapState := givenBack thirdServed (HEAP_ST + 176)

theorem heapInit_boot : ∃ v', heapInit bootVmm bootHeap = some (true, v', bootedHeap) :=
  heapInit_initializedBy (by decide +kernel)

theorem firstServed_call : heapAcquire bootedHeap 100 = some (HEAP_ST + 32, firstServed) :=
  heapAcquire_servedBy (by decide +kernel)

theorem secondServed_call : heapAcquire firstServed 200 = some (HEAP_ST + 176, secondServed) :=
  heapAcquire_servedBy (by decide +kernel)

theorem thirdServed_call : heapAcquire secondServed 50 = some (HEAP_ST + 416, thirdServed) :=
  heapAcquire_servedBy (by decide +kernel)

theorem secondGivenBack_call :
    heapRelinquish thirdServed (HEAP_ST + 176) = some (true, secondGivenBack) :=
  heapRelinquish_givenBack (by decide +kernel)

theorem secondGivenBack_row :
    Row secondGivenBack [HEAP_ST, HEAP_ST + 144, HEAP_ST + 384, HEAP_ST + 480] :=
  ⟨by decide +kernel, ⟨by decide +kernel, by decide +kernel, by decide +kernel, by decide⟩,
    by decide +kernel, by decide +kernel⟩

-- from here on only the lemmas above say what the five states are
attribute [irreducible] bootedHeap firstServed secondServed thirdServed secondGivenBack

theorem Row.acquireSafe (hrow : Row s hs) (hn : n ≤ 2 ^ 63) :
    AcquireSafe s.mem hs n HEAP_DEFAULT_ALIGNMENT := by
  intro h _ hfind
  have hh : h ∈ hs := List.mem_of_find?_eq_some hfind
  have hin := hrow.blocks.tiles.within hh
  have hgt := blockEnd_gt (header s.mem) h
  have hlarge : HEAP_MIN_PAYLOAD_SIZE ≤ payloadSize s.mem h := hrow.blocks.large h hh
  have hdefault : HEAP_DEFAULT_ALIGNMENT = 16 := rfl
  have hmin : HEAP_MIN_PAYLOAD_SIZE = 32 := rfl
  have hoff : SIZEOF_OFFSET = 2 := rfl
  have hND : HEAP_ND = 0xFFFFFFC000000000 := rfl
  have hslack := alignedPayload_spec (h := h) ⟨4, hdefault⟩ (by omega) (by omega)
  omega

theorem HeapStep.ofAcquire (hrow : Row x.heap hs) (hn : n ≤ 2 ^ 63) (hp : p ≠ 0)
    (hcall : heapAcquire x.heap n = some (p, s')) : HeapStep x ⟨s', ⟨p, n⟩ :: x.live⟩ := by
  have hstep := HeapStep.acquire x hs n HEAP_DEFAULT_ALIGNMENT p s' hrow ⟨4, rfl⟩ (by decide)
    (hrow.acquireSafe hn) hcall
  rwa [if_neg hp] at hstep

/-- The first and the third extent, after the second one was given back. -/
theorem heap_sound_boot : ∃ x : HeapSystem,
    x.live = [⟨HEAP_ST + 416, 50⟩, ⟨HEAP_ST + 32, 100⟩] ∧
    Sound HEAP_ST HEAP_ND x.live ∧ ∃ hs, Row x.heap hs ∧
      (∀ e ∈ x.live, ∀ h ∈ hs, Clear h e.start e.stop) ∧
      ∀ n alignment, IsPowerOfTwo alignment → alignment < 2 ^ 32 →
        AcquireSafe x.heap.mem hs n alignment → AcquireKept x n alignment := by
  obtain ⟨v', hinit⟩ := heapInit_boot
  have hrun₁ : Run HeapStep ⟨bootedHeap, []⟩ ⟨firstServed, [⟨HEAP_ST + 32, 100⟩]⟩ :=
    Relation.ReflTransGen.single
      (.ofAcquire (heapInit_row hinit) (by norm_num) (by decide) firstServed_call)
  obtain ⟨-, hs₁, hrow₁, -⟩ := heap_sound hinit hrun₁
  have hrun₂ := hrun₁.tail (.ofAcquire hrow₁ (by decide) (by decide) secondServed_call)
  obtain ⟨-, hs₂, hrow₂, -⟩ := heap_sound hinit hrun₂
  have hrun₃ := hrun₂.tail (.ofAcquire hrow₂ (by decide) (by decide) thirdServed_call)
  obtain ⟨-, hs₃, hrow₃, -⟩ := heap_sound hinit hrun₃
  have hnear : RelinquishSafe thirdServed.mem hs₃ (HEAP_ST + 176) := by
    intro h hh _ _
    have hin := hrow₃.blocks.tiles.within hh
    omega
  have hrun₄ := hrun₃.tail (.relinquish _ hs₃ ⟨HEAP_ST + 176, 200⟩ true secondGivenBack hrow₃
    (List.mem_cons_of_mem _ List.mem_cons_self) hnear secondGivenBack_call)
  exact ⟨_, by decide, heap_sound hinit hrun₄⟩

/-- A request for all but one byte of the address space is rounded up to nothing and granted. -/
theorem request_rounded_to_nothing : ∃ v' s', heapInit bootVmm bootHeap = some (true, v', s') ∧
    (∃ z, heapAlignedAcquire s' (2 ^ 64 - 1) 16 = some (HEAP_ST + 32, z)) ∧
    ¬AcquireKept ⟨s', []⟩ (2 ^ 64 - 1) 16 := by
  obtain ⟨v', hinit⟩ := heapInit_boot
  have h : (heapAlignedAcquire bootedHeap (2 ^ 64 - 1) 16).map Prod.fst = some (HEAP_ST + 32) := by
    decide +kernel
  obtain ⟨⟨p, z⟩, hcall, rfl⟩ := Option.map_eq_some_iff.mp h
  refine ⟨v', bootedHeap, hinit, ⟨z, hcall⟩, ?_⟩
  rintro ⟨p, z', hcall', hkept⟩
  rw [hcall, Option.some.injEq, Prod.mk.injEq] at hcall'
  rw [← hcall'.1] at hkept
  rcases hkept with hzero | ⟨_, _, hwithin, _⟩
  · exact absurd hzero (by decide)
  · exact absurd hwithin (by decide)

end Ych.Krnlheap
