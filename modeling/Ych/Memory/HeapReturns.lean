import Ych.Memory.HeapOrder

/-! Giving a live pointer back, in any run of granted requests and releases from `HeapInit`: all
goes well but for the last block of the heap behind a free one, which is merged with it first. -/
namespace Ych.Krnlheap
open Words Bitmap ByteMemory Krnlmem Virtmemmgmt Links Runs Allocations Coalescing

variable {s s' : HeapState} {m' : Bytes} {h n p : Nat} {hs hs' l r l' r' : List Nat}
variable {x y : HeapSystem} {e f : Extent}

/-- A granted request, a release, or a write to the live extents. -/
inductive HolderStep : HeapSystem → HeapSystem → Prop where
  | acquire (x : HeapSystem) (n p : Nat) (s' : HeapState)
      (hcall : heapAcquire x.heap n = some (p, s')) (hp : p ≠ 0) :
      HolderStep x ⟨s', ⟨p, n⟩ :: x.live⟩
  | relinquish (x : HeapSystem) (e : Extent) (s' : HeapState) (he : e ∈ x.live)
      (hcall : heapRelinquish x.heap e.start = some (true, s')) :
      HolderStep x ⟨s', x.live.erase e⟩
  | write (x : HeapSystem) (m' : Bytes) (h : WritesLive x m') :
      HolderStep x ⟨{ x.heap with mem := m' }, x.live⟩

structure Settled (x : HeapSystem) (hs : List Nat) : Prop where
  order : Orderly x hs
  inside : ∀ h ∈ hs, pointerOf h < HEAP_ND

theorem Settled.acquire (hx : Settled x hs) (hcall : heapAcquire x.heap n = some (p, s'))
    (hp : p ≠ 0) : ∃ hs', Settled ⟨s', ⟨p, n⟩ :: x.live⟩ hs' := by
  rcases hx.order.heapAcquire_spec n with hnone | ⟨l, h, r, hs', m', rfl, hfree, hsome, hg⟩
  · rw [hcall, Option.some.injEq, Prod.mk.injEq] at hnone
    exact absurd hnone.1 hp
  · rw [hcall, Option.some.injEq, Prod.mk.injEq] at hsome
    obtain ⟨rfl, rfl⟩ := hsome
    refine ⟨hs', hx.order.acquire hfree hg, fun k hk => ?_⟩
    rcases hg.rest with rfl | ⟨i, rfl, -, hlarge⟩
    · exact hx.inside k hk
    · rcases mem_insert_iff.mp hk with rfl | hk'
      · -- the block that was split off has room for more than the slack
        have hin := hg.chain.tiles.within hk
        have hE : blockEnd (header m') k = k + SIZEOF_HEADER + payloadSize m' k := rfl
        have hp := pointerOf_eq k
        omega
      · exact hx.inside k hk'

theorem Settled.relinquish (hx : Settled x hs) (he : e ∈ x.live)
    (hcall : heapRelinquish x.heap e.start = some (true, s')) :
    ∃ hs', Settled ⟨s', x.live.erase e⟩ hs' := by
  obtain ⟨h, hh, htaken, hstart, -⟩ := hx.order.home he
  obtain ⟨l, r, rfl⟩ := List.append_of_mem hh
  rcases hx.order.heapRelinquish_spec hstart htaken (hx.inside h hh) with
    ⟨-, hnone⟩ | ⟨-, l', p, r', m', hsome, hm, hM⟩
  · rw [hcall] at hnone
    exact absurd hnone (by simp)
  · rw [hcall, Option.some.injEq, Prod.mk.injEq] at hsome
    rw [hsome.2]
    exact ⟨l' ++ p :: r', hx.order.release he hstart htaken hm hM,
      fun k hk => hx.inside k (hm.subset hk)⟩

theorem HolderStep.settled (hstep : HolderStep x y) (hx : ∃ hs, Settled x hs) :
    ∃ hs, Settled y hs := by
  obtain ⟨hs, hx⟩ := hx
  cases hstep with
  | acquire n p s' hcall hp => exact hx.acquire hcall hp
  | relinquish e s' he hcall => exact hx.relinquish he hcall
  | write m' h => exact ⟨hs, (hx.order.write h).1, hx.inside⟩

/-- What the release of `e` should leave: the row in order, the block merged with its free
neighbours, the blocks of all other live pointers as they were. -/
structure GivenBack (x : HeapSystem) (hs : List Nat) (e : Extent) (s' : HeapState)
    (hs' : List Nat) : Prop where
  heap : s' = { x.heap with mem := s'.mem }
  root : s'.rootHeader = hs'.headD 0
  chain : Chain (header s'.mem) HEAP_ST HEAP_ND hs'
  coalesced : Coalesced (isFree s'.mem) hs'
  merged : ∃ l r l' p r', hs = l ++ headerOf x.heap.mem e.start :: r ∧ hs' = l' ++ p :: r' ∧
    isFree s'.mem p = true ∧
    Merges (isFree x.heap.mem) l (headerOf x.heap.mem e.start) r l' p r'
  others : ∀ f ∈ x.live.erase e, headerOf x.heap.mem f.start ∈ hs' ∧
    Untouched x.heap.mem s'.mem (headerOf x.heap.mem f.start)

def ReturnKept (x : HeapSystem) (hs : List Nat) (e : Extent) : Prop :=
  ∃ s' hs', heapRelinquish x.heap e.start = some (true, s') ∧ GivenBack x hs e s' hs'

theorem Orderly.others_untouched (ho : Orderly x (l ++ h :: r)) (he : e ∈ x.live)
    (hstart : e.start = pointerOf h) (htaken : isFree x.heap.mem h = false)
    (hm : Merges (isFree x.heap.mem) l h r l' p r')
    (hM : Merged x.heap.mem m' HEAP_ST HEAP_ND p l' r') (hf : f ∈ x.live.erase e) :
    headerOf x.heap.mem f.start ∈ l' ++ p :: r' ∧
      Untouched x.heap.mem m' (headerOf x.heap.mem f.start) := by
  obtain ⟨k, hk, -, hkstart, hkhome⟩ := ho.home (List.mem_of_mem_erase hf)
  obtain ⟨k', hk', htaken', hkstart', -⟩ := (ho.release he hstart htaken hm hM).home hf
  have heq : k' = k := ho.pointerOf_inj (hm.subset hk') hk (hkstart'.symm.trans hkstart)
  rw [heq] at hk' htaken'
  have hne : k ≠ p := by
    rintro rfl
    exact hM.free (not_isFree_iff.mp htaken')
  rw [hkhome]
  exact ⟨hk', hM.same k (mem_of_ne hk' hne)⟩

theorem Settled.returnKept_iff (hx : Settled x hs) (he : e ∈ x.live) :
    ReturnKept x hs e ↔ ¬LastBehindFree x.heap.mem (headerOf x.heap.mem e.start) := by
  obtain ⟨h, hh, htaken, hstart, hhome⟩ := hx.order.home he
  obtain ⟨l, r, rfl⟩ := List.append_of_mem hh
  rw [hhome]
  rcases hx.order.heapRelinquish_spec hstart htaken (hx.inside h hh) with
    ⟨hnull, hnone⟩ | ⟨hnull, l', p, r', m', hsome, hm, hM⟩
  · refine iff_of_false ?_ (not_not.mpr hnull)
    rintro ⟨z, hs', hcall, -⟩
    rw [hnone] at hcall
    exact absurd hcall (by simp)
  · have ho := hx.order.release he hstart htaken hm hM
    refine iff_of_true ⟨_, _, hsome, rfl, ho.root, ho.chain, ho.coalesced, ?_, fun f hf => ?_⟩ hnull
    · rw [hhome]
      exact ⟨l, r, l', p, r', rfl, rfl, isFree_iff.mpr hM.free, hm⟩
    · exact hx.order.others_untouched he hstart htaken hm hM hf

/-- In every run from `HeapInit` a live pointer can be given back as it should be if and only if
its block is not the last one behind a free one. -/
theorem heapRelinquish_kept_iff {v v' : VmmState} (hinit : heapInit v s = some (true, v', s'))
    (hrun : Run HolderStep ⟨s', []⟩ x) :
    ∃ hs, x.heap.rootHeader = hs.headD 0 ∧ Chain (header x.heap.mem) HEAP_ST HEAP_ND hs ∧
      ∀ e ∈ x.live, ReturnKept x hs e ↔
        ¬LastBehindFree x.heap.mem (headerOf x.heap.mem e.start) := by
  have hpreserved : ∀ x y, (∃ hs, Settled x hs) → HolderStep x y → ∃ hs, Settled y hs :=
    fun _ _ hx hstep => hstep.settled hx
  have hboot : Settled ⟨s', []⟩ [HEAP_ST] := by
    refine ⟨(heapInit_orderly hinit).1, fun h hh => ?_⟩
    rw [List.mem_singleton.mp hh]
    decide
  obtain ⟨hs, hx⟩ := Run.invariant hpreserved hrun ⟨_, hboot⟩
  exact ⟨hs, hx.order.root, hx.order.chain, fun e he => hx.returnKept_iff he⟩

/-- One request, and its pointer can be given back. -/
theorem heapRelinquish_kept_iff_boot : ∃ v' s' x hs e, heapInit bootVmm bootHeap =
    some (true, v', s') ∧ Run HolderStep ⟨s', []⟩ x ∧ e ∈ x.live ∧ ReturnKept x hs e := by
  obtain ⟨v', hinit⟩ := heapInit_boot
  have hnext : pNext firstServed.mem (headerOf firstServed.mem (HEAP_ST + 32)) ≠ 0 := by
    decide +kernel
  have hrun : Run HolderStep ⟨bootedHeap, []⟩ ⟨firstServed, [⟨HEAP_ST + 32, 100⟩]⟩ :=
    Relation.ReflTransGen.single
      (HolderStep.acquire ⟨bootedHeap, []⟩ 100 _ firstServed firstServed_call (by decide))
  obtain ⟨hs, -, -, hkept⟩ := heapRelinquish_kept_iff hinit hrun
  refine ⟨v', bootedHeap, _, hs, _, hinit, hrun, List.mem_cons_self,
    (hkept _ List.mem_cons_self).mpr fun hlast => hnext hlast.2.2⟩

/-- The first 100 bytes and all that is left; the first given back, the rest cannot be. -/
theorem last_block_stuck : ∃ v' s' x e, heapInit bootVmm bootHeap = some (true, v', s') ∧
    Run HolderStep ⟨s', []⟩ x ∧ e ∈ x.live ∧ heapRelinquish x.heap e.start = none := by
  obtain ⟨v', hinit⟩ := heapInit_boot
  have h : ((heapAcquire firstServed (HEAP_ND - HEAP_ST - 176)).bind fun t =>
        (heapRelinquish t.2 (HEAP_ST + 32)).map fun u =>
          (t.1, u.1, (heapRelinquish u.2 (HEAP_ST + 176)).isNone)) =
      some (HEAP_ST + 176, true, true) := by
    decide +kernel
  obtain ⟨⟨q, s₂⟩, hrest, h⟩ := Option.bind_eq_some_iff.mp h
  obtain ⟨⟨ok, s₃⟩, hback, hres⟩ := Option.map_eq_some_iff.mp h
  simp only [Prod.mk.injEq, Option.isNone_iff_eq_none] at hres
  obtain ⟨rfl, rfl, hnone⟩ := hres
  have hrun₁ : Run HolderStep ⟨bootedHeap, []⟩ ⟨firstServed, [⟨HEAP_ST + 32, 100⟩]⟩ :=
    Relation.ReflTransGen.single
      (HolderStep.acquire ⟨bootedHeap, []⟩ 100 _ firstServed firstServed_call (by decide))
  have hrun₂ := hrun₁.tail (HolderStep.acquire _ _ _ s₂ hrest (by decide))
  have hrun₃ := hrun₂.tail (HolderStep.relinquish _ ⟨HEAP_ST + 32, 100⟩ s₃
    (List.mem_cons_of_mem _ List.mem_cons_self) hback)
  exact ⟨v', bootedHeap, _, ⟨HEAP_ST + 176, HEAP_ND - HEAP_ST - 176⟩, hinit, hrun₃, by simp, hnone⟩

end Ych.Krnlheap
