import Ych.Memory.HeapOrder

/-! The kernel heap between requests of the default alignment: no two neighbours are free, and
the taken blocks are those of the live pointers. When none is live any more, the heap is again
the one free block `HeapInit` made of it. -/
namespace Ych.Krnlheap
open Words Bitmap ByteMemory Krnlmem Virtmemmgmt Links Runs Allocations Coalescing

variable {s s' : HeapState} {m m' : Bytes} {a b h k n p q : Nat} {hs hs' l r : List Nat}
variable {x y : HeapSystem} {e f : Extent}

structure Tidy (x : HeapSystem) (hs : List Nat) : Prop where
  root : x.heap.rootHeader = hs.headD 0
  start : x.heap.vaddrHeapSt = HEAP_ST
  stop : x.heap.vaddrHeapNd = HEAP_ND
  chain : Chain (header x.heap.mem) HEAP_ST HEAP_ND hs
  fit : ∀ h ∈ hs, Fit x.heap.mem h
  coalesced : Coalesced (isFree x.heap.mem) hs
  last : EndsFree (isFree x.heap.mem) hs
  held : (x.live.map Extent.start).Perm ((taken (isFree x.heap.mem) hs).map pointerOf)
  lodged : ∀ e ∈ x.live, ∃ h, Lodged x.heap.mem hs e h

theorem Tidy.orderly (ht : Tidy x hs) : Orderly x hs :=
  ⟨ht.root, ht.start, ht.stop, ht.chain, ht.fit, ht.coalesced, ht.held, ht.lodged⟩

theorem Orderly.tidy (ho : Orderly x hs) (hlast : EndsFree (isFree x.heap.mem) hs) : Tidy x hs :=
  ⟨ho.root, ho.start, ho.stop, ho.chain, ho.fit, ho.coalesced, hlast, ho.held, ho.lodged⟩

/-- A granted request, its block not the last of the list, the release of a live pointer, or a
write to the live extents whose size was not rounded up to nothing. -/
inductive CallerStep : HeapSystem → HeapSystem → Prop where
  | acquire (x : HeapSystem) (n p : Nat) (s' : HeapState)
      (hcall : heapAcquire x.heap n = some (p, s')) (hp : p ≠ 0)
      (hlast : pNext s'.mem
        (sub64 p (load s'.mem (sub64 p SIZEOF_OFFSET) SIZEOF_OFFSET)) ≠ 0) :
      CallerStep x ⟨s', ⟨p, n⟩ :: x.live⟩
  | relinquish (x : HeapSystem) (e : Extent) (ok : Bool) (s' : HeapState) (he : e ∈ x.live)
      (hcall : heapRelinquish x.heap e.start = some (ok, s')) :
      CallerStep x ⟨s', x.live.erase e⟩
  | write (x : HeapSystem) (m' : Bytes)
      (h : ∀ i, HEAP_ST ≤ i → i < HEAP_ND → (∀ e ∈ x.live,
        e.size + HEAP_DEFAULT_ALIGNMENT ≤ 2 ^ 64 → i < e.start ∨ e.stop ≤ i) →
        m' i = x.heap.mem i) : CallerStep x ⟨{ x.heap with mem := m' }, x.live⟩

theorem Tidy.acquire {p : Nat} (ht : Tidy x hs) (hcall : heapAcquire x.heap n = some (p, s'))
    (hp : p ≠ 0)
    (hlast : pNext s'.mem (sub64 p (load s'.mem (sub64 p SIZEOF_OFFSET) SIZEOF_OFFSET)) ≠ 0) :
    ∃ hs', Tidy ⟨s', ⟨p, n⟩ :: x.live⟩ hs' := by
  rcases ht.orderly.heapAcquire_spec n with hnone | ⟨l, h, r, hs', m', rfl, hfree, hsome, hg⟩
  · rw [hcall, Option.some.injEq, Prod.mk.injEq] at hnone
    exact absurd hnone.1 hp
  rw [hcall, Option.some.injEq, Prod.mk.injEq] at hsome
  obtain ⟨rfl, rfl⟩ := hsome
  have hsame : ∀ k ∈ l ++ r, isFree m' k = isFree x.heap.mem k := fun k hk =>
    (hg.same k hk).isFree_eq
  refine ⟨hs', (ht.orderly.acquire hfree hg).tidy ?_⟩
  -- whether the block was cut or taken whole
  rcases hg.rest with rfl | ⟨i, rfl, hi, -⟩
  · refine ht.last.take ?_ hsame
    have hend := hg.fit.pointerOf_le
    have hin := hg.chain.tiles.within (List.mem_append_right l List.mem_cons_self)
    have hND : HEAP_ND = 0xFFFFFFC000000000 := rfl
    have hhome : headerOf m' (pointerOf h) = h := hg.fit.offset_eq hg.taken (by omega)
    have hnext : pNext m' (headerOf m' (pointerOf h)) ≠ 0 := hlast
    rw [hhome] at hnext
    rintro rfl
    exact hnext hg.chain.next_eq
  · exact ht.last.cut (isFree_iff.mpr (by rw [hi]; exact Nat.one_ne_zero)) hsame

theorem Tidy.relinquish (ht : Tidy x hs) (he : e ∈ x.live) :
    ∃ s', heapRelinquish x.heap e.start = some (true, s') ∧
      ∃ hs', Tidy ⟨s', x.live.erase e⟩ hs' := by
  obtain ⟨h, hh, htaken, hstart, -⟩ := ht.orderly.home he
  obtain ⟨l, r, rfl⟩ := List.append_of_mem hh
  have hr := ht.last.ne_nil htaken
  have hinside : pointerOf h < HEAP_ND := by
    -- the block is not the last of the row
    have hend := (ht.fit h hh).pointerOf_le
    have hnext := ht.chain.tiles_middle.2.length_le
    have hpos := List.length_pos_of_ne_nil hr
    omega
  rcases ht.orderly.heapRelinquish_spec hstart htaken hinside with
    ⟨hnull, -⟩ | ⟨-, l', p, r', m', hcall, hm, hM⟩
  · exact absurd (hnull.nil ht.chain) hr
  · have hsame : ∀ k ∈ l' ++ r', isFree m' k = isFree x.heap.mem k := fun k hk =>
      (hM.same k hk).isFree_eq
    exact ⟨_, hcall, l' ++ p :: r', (ht.orderly.release he hstart htaken hm hM).tidy
      (hm.endsFree ht.last htaken (isFree_iff.mpr hM.free) hsame)⟩

theorem Tidy.write (ht : Tidy x hs) (h : WritesLive x m') :
    Tidy ⟨{ x.heap with mem := m' }, x.live⟩ hs := by
  obtain ⟨ho, hfree⟩ := ht.orderly.write h
  exact ho.tidy (ht.last.congr hfree)

theorem CallerStep.tidy (hstep : CallerStep x y) (ht : ∃ hs, Tidy x hs) : ∃ hs, Tidy y hs := by
  obtain ⟨hs, ht⟩ := ht
  cases hstep with
  | acquire n p s' hcall hp hlast => exact ht.acquire hcall hp hlast
  | relinquish e ok s' he hcall =>
    obtain ⟨s₁, hcall₁, htidy⟩ := ht.relinquish he
    rw [hcall, Option.some.injEq, Prod.mk.injEq] at hcall₁
    rw [hcall₁.2]
    exact htidy
  | write m' h => exact ⟨hs, ht.write h⟩

theorem Tidy.restored (ht : Tidy x hs) (hnone : x.live = []) :
    x.heap.rootHeader = HEAP_ST ∧
      header x.heap.mem HEAP_ST = ⟨0, 0, HEAP_ND - HEAP_ST - SIZEOF_HEADER, 1⟩ := by
  have htaken : taken (isFree x.heap.mem) hs = [] := by
    have hheld := ht.held
    rw [hnone, List.map_nil] at hheld
    exact List.map_eq_nil_iff.mp hheld.nil_eq.symm
  have hne : hs ≠ [] := by
    obtain ⟨k, hk, -⟩ := ht.last
    exact List.ne_nil_of_mem (List.mem_of_getLast? hk)
  obtain ⟨p, rfl, hfree⟩ := ht.coalesced.singleton hne htaken
  obtain ⟨hp, hend⟩ := ht.chain.tiles
  obtain ⟨hprev, hnext, -⟩ := ht.chain.linked
  have hflag := (ht.fit p List.mem_cons_self).flag
  have hpos := isFree_iff.mp hfree
  rw [hp] at hprev hnext hend hflag hpos
  refine ⟨ht.root.trans hp, ?_⟩
  have hsize : HEAP_ST + SIZEOF_HEADER + payloadSize x.heap.mem HEAP_ST = HEAP_ND := hend
  have hsize' : payloadSize x.heap.mem HEAP_ST = HEAP_ND - HEAP_ST - SIZEOF_HEADER := by omega
  have hone : bFree x.heap.mem HEAP_ST = 1 := by omega
  rw [header, hsize', hone]
  have hprev' : pPrev x.heap.mem HEAP_ST = 0 := hprev
  have hnext' : pNext x.heap.mem HEAP_ST = 0 := hnext
  rw [hprev', hnext']

theorem heapInit_tidy {v v' : VmmState} (hinit : heapInit v s = some (true, v', s')) :
    Tidy ⟨s', []⟩ [HEAP_ST] := by
  obtain ⟨ho, hfree⟩ := heapInit_orderly hinit
  exact ho.tidy ⟨HEAP_ST, rfl, hfree⟩

/-- In every run of such steps from `HeapInit` every live pointer can be given back, and once
none is live the heap is again what `HeapInit` made of it. -/
theorem heap_restored {v v' : VmmState} (hinit : heapInit v s = some (true, v', s'))
    (hrun : Run CallerStep ⟨s', []⟩ x) :
    (x.live = [] → x.heap.rootHeader = x.heap.vaddrHeapSt ∧
      header x.heap.mem x.heap.vaddrHeapSt =
        ⟨0, 0, x.heap.vaddrHeapNd - x.heap.vaddrHeapSt - SIZEOF_HEADER, 1⟩ ∧
      x.heap.vaddrHeapSt = s'.vaddrHeapSt ∧ x.heap.vaddrHeapNd = s'.vaddrHeapNd) ∧
    (∀ e ∈ x.live, ∃ z, heapRelinquish x.heap e.start = some (true, z)) ∧
    ∀ n, ∃ r, heapAcquire x.heap n = some r := by
  have hpreserved : ∀ x y, (∃ hs, Tidy x hs) → CallerStep x y → ∃ hs, Tidy y hs :=
    fun _ _ ht hstep => hstep.tidy ht
  obtain ⟨hs, ht⟩ := Run.invariant hpreserved hrun ⟨[HEAP_ST], heapInit_tidy hinit⟩
  have hrow := heapInit_row hinit
  refine ⟨fun hnone => ?_, fun e he => ?_, fun n => ?_⟩
  · obtain ⟨hroot, hhd⟩ := ht.restored hnone
    rw [ht.start, ht.stop, hrow.start, hrow.stop]
    exact ⟨hroot, hhd, rfl, rfl⟩
  · obtain ⟨z, hcall, -⟩ := ht.relinquish he
    exact ⟨z, hcall⟩
  · rcases ht.orderly.heapAcquire_spec n with hnone | ⟨l, h, r, hs', m', -, -, hsome, -⟩
    · exact ⟨_, hnone⟩
    · exact ⟨_, hsome⟩

/-- Two requests from boot, the first one's extent given back first. -/
theorem heap_restored_boot : ∃ x, Run CallerStep ⟨bootedHeap, []⟩ x ∧ x.live = [] ∧
    header x.heap.mem x.heap.vaddrHeapSt =
      ⟨0, 0, x.heap.vaddrHeapNd - x.heap.vaddrHeapSt - SIZEOF_HEADER, 1⟩ := by
  obtain ⟨v', hinit⟩ := heapInit_boot
  have hrun₁ : Run CallerStep ⟨bootedHeap, []⟩ ⟨firstServed, [⟨HEAP_ST + 32, 100⟩]⟩ :=
    Relation.ReflTransGen.single (CallerStep.acquire ⟨bootedHeap, []⟩ 100 _ firstServed
      firstServed_call (by decide) (by decide +kernel))
  have hrun₂ := hrun₁.tail (CallerStep.acquire _ 200 _ secondServed secondServed_call (by decide)
    (by decide +kernel))
  have hleft : [(⟨HEAP_ST + 176, 200⟩ : Extent), ⟨HEAP_ST + 32, 100⟩].erase ⟨HEAP_ST + 32, 100⟩ =
      [⟨HEAP_ST + 176, 200⟩] := by
    decide
  obtain ⟨z, hfirst⟩ := (heap_restored hinit hrun₂).2.1 ⟨HEAP_ST + 32, 100⟩ (by simp)
  have hstep := CallerStep.relinquish _ ⟨HEAP_ST + 32, 100⟩ true z (by simp) hfirst
  dsimp only at hstep
  rw [hleft] at hstep
  have hrun₃ := hrun₂.tail hstep
  obtain ⟨w, hsecond⟩ := (heap_restored hinit hrun₃).2.1 ⟨HEAP_ST + 176, 200⟩ (by simp)
  have hstep' := CallerStep.relinquish _ ⟨HEAP_ST + 176, 200⟩ true w (by simp) hsecond
  rw [List.erase_cons_head] at hstep'
  have hrun₄ := hrun₃.tail hstep'
  exact ⟨⟨w, []⟩, hrun₄, rfl, ((heap_restored hinit hrun₄).1 rfl).2.1⟩

end Ych.Krnlheap
