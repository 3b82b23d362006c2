import Ych.Memory.HeapRequests

/-! The heap between two calls of its users: the taken blocks are those of the live pointers and
no two neighbours are free. A live pointer can be given back unless its block is the last one and
the one before it is free. -/
namespace Ych.Krnlheap
open Words Bitmap ByteMemory Krnlmem Virtmemmgmt Links Runs Allocations Coalescing

variable {s s' : HeapState} {m m' : Bytes} {a b h k n p q : Nat} {hs hs' l r l' r' : List Nat}
variable {x y : HeapSystem} {e f : Extent}

/-- A live pointer is the one of a taken block, with room for the request unless rounding it
wrapped around. -/
structure Lodged (m : Bytes) (hs : List Nat) (e : Extent) (h : Nat) : Prop where
  mem : h ∈ taken (isFree m) hs
  start : e.start = pointerOf h
  below : e.size + HEAP_DEFAULT_ALIGNMENT ≤ 2 ^ 64 → e.stop ≤ blockEnd (header m) h

structure Orderly (x : HeapSystem) (hs : List Nat) : Prop where
  root : x.heap.rootHeader = hs.headD 0
  start : x.heap.vaddrHeapSt = HEAP_ST
  stop : x.heap.vaddrHeapNd = HEAP_ND
  chain : Chain (header x.heap.mem) HEAP_ST HEAP_ND hs
  fit : ∀ h ∈ hs, Fit x.heap.mem h
  coalesced : Coalesced (isFree x.heap.mem) hs
  held : (x.live.map Extent.start).Perm ((taken (isFree x.heap.mem) hs).map pointerOf)
  lodged : ∀ e ∈ x.live, ∃ h, Lodged x.heap.mem hs e h

theorem Lodged.keep (he : Lodged m hs e h) (hmem : h ∈ taken (isFree m') hs')
    (hu : Untouched m m' h) : Lodged m' hs' e h := by
  refine ⟨hmem, he.start, fun hfits => ?_⟩
  rw [hu.blockEnd_eq]
  exact he.below hfits

theorem Orderly.pointerOf_inj (ho : Orderly x hs) (hh : h ∈ hs) (hk : k ∈ hs)
    (heq : pointerOf h = pointerOf k) : h = k := by
  have hh' := (ho.fit h hh).pointerOf_le
  have hk' := (ho.fit k hk).pointerOf_le
  have hph := pointerOf_eq h
  have hpk := pointerOf_eq k
  have hhead : SIZEOF_HEADER = 25 := rfl
  by_contra hne
  rcases ho.chain.tiles.apart hh hk hne with hle | hle
  · omega
  · omega

theorem Orderly.heapAcquire_spec (ho : Orderly x hs) (n : Nat) :
    heapAcquire x.heap n = some (0, x.heap) ∨
    ∃ l h r hs' m', hs = l ++ h :: r ∧ isFree x.heap.mem h = true ∧
      heapAcquire x.heap n = some (pointerOf h, { x.heap with mem := m' }) ∧
      Handed x.heap.mem m' HEAP_ST HEAP_ND h n l r hs' := by
  refine heapAcquire_handed ho.root ho.chain (by decide) (fun h hh => (ho.fit h hh).slack)
    (fun h hh => ?_) fun hfits => ?_
  · have hin := ho.chain.tiles.within hh
    have hgt := blockEnd_gt (header x.heap.mem) h
    have hND : HEAP_ND = 0xFFFFFFC000000000 := rfl
    omega
  · have hdefault : HEAP_DEFAULT_ALIGNMENT = 16 := rfl
    have hmin : HEAP_MIN_PAYLOAD_SIZE = 32 := rfl
    exact (roundedSize_spec ⟨4, hdefault⟩ (by omega) (by omega)).1

theorem Fit.offset_eq (hfit : Fit m h) (htaken : bFree m h = 0) (hlt : pointerOf h < 2 ^ 64) :
    headerOf m (pointerOf h) = h := by
  have hp := pointerOf_eq h
  have hoff : SIZEOF_OFFSET = 2 := rfl
  have hslot : sub64 (pointerOf h) SIZEOF_OFFSET = pointerOf h - SIZEOF_OFFSET :=
    sub64_of_le (by omega) hlt
  rw [headerOf, hslot, hfit.offset htaken, sub64_of_le (by omega) hlt]
  omega

theorem Orderly.acquire (ho : Orderly x (l ++ h :: r)) (hfree : isFree x.heap.mem h = true)
    (hg : Handed x.heap.mem m' HEAP_ST HEAP_ND h n l r hs') :
    Orderly ⟨{ x.heap with mem := m' }, ⟨pointerOf h, n⟩ :: x.live⟩ hs' := by
  have hsame : ∀ k ∈ l ++ r, isFree m' k = isFree x.heap.mem k := fun k hk =>
    (hg.same k hk).isFree_eq
  have htaken : isFree m' h = false := not_isFree_iff.mpr hg.taken
  have hfits : ∀ k ∈ l ++ r, Fit m' k := fun k hk =>
    (ho.fit k (mem_of_mem_append hk)).keep (hg.same k hk)
  have hrest : hs'.headD 0 = (l ++ h :: r).headD 0 ∧ (∀ k ∈ hs', Fit m' k) ∧
      Coalesced (isFree m') hs' ∧
      (taken (isFree m') hs').Perm (h :: taken (isFree x.heap.mem) (l ++ r)) := by
    rcases hg.rest with rfl | ⟨i, rfl, hi, hlarge⟩
    · refine ⟨rfl, fun k hk => ?_, ho.coalesced.take htaken hsame, taken_take htaken hsame⟩
      by_cases heq : k = h
      · rw [heq]
        exact hg.fit
      · exact hfits k (mem_of_ne hk heq)
    · have hi' : isFree m' i = true := isFree_iff.mpr (by rw [hi]; exact Nat.one_ne_zero)
      refine ⟨?_, fun k hk => ?_, ho.coalesced.cut hfree htaken hsame,
        taken_cut htaken hi' hsame⟩
      · rw [headD_append, headD_append]
        rfl
      · rcases mem_insert_iff.mp hk with rfl | hk
        · refine ⟨?_, hi.le, fun hzero => absurd (hi.symm.trans hzero) Nat.one_ne_zero⟩
          exact (pointerOf_eq k).2.2.le.trans hlarge
        · by_cases heq : k = h
          · rw [heq]
            exact hg.fit
          · exact hfits k (mem_of_ne hk heq)
  obtain ⟨hroot, hfit, hcoalesced, hperm⟩ := hrest
  have htakenOld : taken (isFree x.heap.mem) (l ++ h :: r) =
      taken (isFree x.heap.mem) (l ++ r) := by
    rw [taken_append, taken_append, taken_cons_of_free hfree]
  refine ⟨ho.root.trans hroot.symm, ho.start, ho.stop, hg.chain, hfit, hcoalesced, ?_,
    fun e he => ?_⟩
  · refine List.Perm.trans ?_ (hperm.map pointerOf).symm
    have hheld := ho.held
    rw [htakenOld] at hheld
    exact hheld.cons (pointerOf h)
  · rcases List.mem_cons.mp he with rfl | he
    · exact ⟨h, hperm.mem_iff.mpr List.mem_cons_self, rfl, hg.below⟩
    · obtain ⟨k, hk⟩ := ho.lodged e he
      have hmem := hk.mem
      rw [htakenOld] at hmem
      exact ⟨k, hk.keep (hperm.mem_iff.mpr (List.mem_cons_of_mem h hmem))
        (hg.same k (mem_taken.mp hmem).1)⟩

theorem Orderly.home (ho : Orderly x hs) (he : e ∈ x.live) : ∃ h ∈ hs,
    isFree x.heap.mem h = false ∧ e.start = pointerOf h ∧ headerOf x.heap.mem e.start = h := by
  obtain ⟨h, hlodged⟩ := ho.lodged e he
  obtain ⟨hh, htaken⟩ := mem_taken.mp hlodged.mem
  have hfit := ho.fit h hh
  have hin := ho.chain.tiles.within hh
  have hend := hfit.pointerOf_le
  have hND : HEAP_ND = 0xFFFFFFC000000000 := rfl
  rw [hlodged.start]
  exact ⟨h, hh, htaken, rfl, hfit.offset_eq (not_isFree_iff.mp htaken) (by omega)⟩

theorem Orderly.heapRelinquish_spec (ho : Orderly x (l ++ h :: r)) (hstart : e.start = pointerOf h)
    (htaken : isFree x.heap.mem h = false) (hinside : pointerOf h < HEAP_ND) :
    LastBehindFree x.heap.mem h ∧ heapRelinquish x.heap e.start = none ∨
    ¬LastBehindFree x.heap.mem h ∧ ∃ l' p r' m',
      heapRelinquish x.heap e.start = some (true, { x.heap with mem := m' }) ∧
      Merges (isFree x.heap.mem) l h r l' p r' ∧
      Merged x.heap.mem m' HEAP_ST HEAP_ND p l' r' := by
  have hh : h ∈ l ++ h :: r := List.mem_append_right l List.mem_cons_self
  have hin := ho.chain.tiles.within hh
  have hp := pointerOf_eq h
  have hND : HEAP_ND = 0xFFFFFFC000000000 := rfl
  have hoff := (ho.fit h hh).offset_eq (not_isFree_iff.mp htaken) (by omega)
  have hlo : x.heap.vaddrHeapSt ≤ pointerOf h := by
    rw [ho.start]
    omega
  have hhi : pointerOf h < x.heap.vaddrHeapNd := by
    rw [ho.stop]
    exact hinside
  rw [hstart]
  exact heapRelinquish_merges ho.chain (by decide) hlo hhi hoff (not_isFree_iff.mp htaken)

theorem Orderly.release (ho : Orderly x (l ++ h :: r)) (he : e ∈ x.live)
    (hstart : e.start = pointerOf h) (htaken : isFree x.heap.mem h = false)
    (hm : Merges (isFree x.heap.mem) l h r l' p r')
    (hM : Merged x.heap.mem m' HEAP_ST HEAP_ND p l' r') :
    Orderly ⟨{ x.heap with mem := m' }, x.live.erase e⟩ (l' ++ p :: r') := by
  have hsame : ∀ k ∈ l' ++ r', isFree m' k = isFree x.heap.mem k := fun k hk =>
    (hM.same k hk).isFree_eq
  have hp' : isFree m' p = true := isFree_iff.mpr hM.free
  have hrelease := hm.taken_release hp' hsame
  have htakenOld : (taken (isFree x.heap.mem) (l ++ h :: r)).Perm
      (h :: taken (isFree x.heap.mem) (l ++ r)) := by
    rw [taken_append, taken_append, taken_cons_of_taken htaken]
    exact List.perm_middle
  have hheld : ((x.live.erase e).map Extent.start).Perm
      ((taken (isFree m') (l' ++ p :: r')).map pointerOf) := by
    have hlive := (List.perm_cons_erase he).map Extent.start
    have hold := (hlive.symm.trans ho.held).trans (htakenOld.map pointerOf)
    rw [List.map_cons, List.map_cons, hstart] at hold
    rw [hrelease]
    exact hold.cons_inv
  refine ⟨ho.root.trans hm.headD_eq.symm, ho.start, ho.stop, hM.chain, fun k hk => ?_,
    hm.coalesced ho.coalesced hsame, hheld, fun f hf => ?_⟩
  · have hold := ho.fit k (hm.subset hk)
    by_cases heq : k = p
    · rw [heq] at hold ⊢
      refine ⟨hold.slack.trans hM.grown, ?_, fun hzero => absurd hzero hM.free⟩
      rcases hM.flag with hone | hsame
      · exact hone.le
      · exact hsame.le.trans hold.flag
    · exact hold.keep (hM.same k (mem_of_ne hk heq))
  · obtain ⟨k, hk⟩ := ho.lodged f (List.mem_of_mem_erase hf)
    have hmem := hheld.mem_iff.mp (List.mem_map_of_mem hf)
    obtain ⟨k', hk', heq⟩ := List.mem_map.mp hmem
    have hk₁ := (mem_taken.mp hk').1
    have heq' : k' = k := ho.pointerOf_inj (hm.subset hk₁) (mem_taken.mp hk.mem).1
      (heq.trans hk.start)
    rw [heq'] at hk' hk₁
    have hne : k ≠ p := by
      rintro rfl
      rw [(mem_taken.mp hk').2] at hp'
      exact Bool.false_ne_true hp'
    exact ⟨k, hk.keep hk' (hM.same k (mem_of_ne hk₁ hne))⟩

/-- Bytes that may change between two calls: those of the live extents whose size was not rounded
up to nothing. -/
def WritesLive (x : HeapSystem) (m' : Bytes) : Prop :=
  ∀ i, HEAP_ST ≤ i → i < HEAP_ND → (∀ e ∈ x.live,
    e.size + HEAP_DEFAULT_ALIGNMENT ≤ 2 ^ 64 → i < e.start ∨ e.stop ≤ i) → m' i = x.heap.mem i

theorem Orderly.write (ho : Orderly x hs) (h : WritesLive x m') :
    Orderly ⟨{ x.heap with mem := m' }, x.live⟩ hs ∧
      ∀ k ∈ hs, isFree m' k = isFree x.heap.mem k := by
  -- a byte outside the payloads behind the live pointers keeps its value
  have hkeep : ∀ i, HEAP_ST ≤ i → i < HEAP_ND →
      (∀ k ∈ hs, i < pointerOf k ∨ blockEnd (header x.heap.mem) k ≤ i) → m' i = x.heap.mem i := by
    intro i hlo hhi hout
    refine h i hlo hhi fun e he hfits => ?_
    obtain ⟨k, hk⟩ := ho.lodged e he
    have hbelow := hk.below hfits
    have hk' := hout k (mem_taken.mp hk.mem).1
    have hstart := hk.start
    omega
  have hhd : ∀ k ∈ hs, header m' k = header x.heap.mem k := by
    intro k hk
    have hin := ho.chain.tiles.within hk
    have hgt := blockEnd_gt (header x.heap.mem) k
    refine header_congr fun i h1 h2 => hkeep i (by omega) (by omega) fun q hq => ?_
    have hclear := ho.chain.payload_clear hq k hk
    have hp := pointerOf_eq q
    unfold Clear at hclear
    omega
  have hfree : ∀ k ∈ hs, isFree m' k = isFree x.heap.mem k := by
    intro k hk
    rw [isFree, isFree, bFree_eq, hhd k hk, ← bFree_eq]
  have htaken := taken_congr hfree
  refine ⟨⟨ho.root, ho.start, ho.stop, ho.chain.same hhd, fun k hk => ?_,
    ho.coalesced.congr hfree, ?_, fun e he => ?_⟩, hfree⟩
  · have hfit := ho.fit k hk
    have hend := hfit.pointerOf_le
    have hin := ho.chain.tiles.within hk
    have hp := pointerOf_eq k
    refine ⟨?_, ?_, fun hzero => ?_⟩
    · rw [payloadSize_eq, hhd k hk]
      exact hfit.slack
    · rw [bFree_eq, hhd k hk]
      exact hfit.flag
    · rw [bFree_eq, hhd k hk] at hzero
      rw [load_congr, hfit.offset hzero]
      intro i h1 h2
      refine hkeep i (by omega) (by omega) fun q hq => ?_
      by_cases heq : q = k
      · rw [heq]
        omega
      · have hq' := pointerOf_eq q
        rcases ho.chain.tiles.apart hq hk heq with hle | hle
        · omega
        · omega
  · dsimp only
    rw [htaken]
    exact ho.held
  · obtain ⟨k, hk⟩ := ho.lodged e he
    refine ⟨k, ?_, hk.start, fun hfits => ?_⟩
    · dsimp only
      rw [htaken]
      exact hk.mem
    · dsimp only
      rw [blockEnd, hhd k (mem_taken.mp hk.mem).1]
      exact hk.below hfits

theorem heapInit_orderly {v v' : VmmState} (hinit : heapInit v s = some (true, v', s')) :
    Orderly ⟨s', []⟩ [HEAP_ST] ∧ isFree s'.mem HEAP_ST = true := by
  have hrow := heapInit_row hinit
  have hhd := heapInit_header hinit
  have hone : bFree s'.mem HEAP_ST = 1 := by rw [bFree_eq, hhd]
  have hfree : isFree s'.mem HEAP_ST = true :=
    isFree_iff.mpr (by rw [hone]; exact Nat.one_ne_zero)
  refine ⟨⟨hrow.root, hrow.start, hrow.stop, hrow.blocks.chain, fun k hk => ?_,
    List.isChain_singleton _, ?_, fun e he => absurd he List.not_mem_nil⟩, hfree⟩
  · rw [List.mem_singleton.mp hk]
    refine ⟨(pointerOf_eq HEAP_ST).2.2.le.trans (hrow.blocks.large _ List.mem_cons_self), hone.le,
      fun hzero => absurd (hone.symm.trans hzero) Nat.one_ne_zero⟩
  · have hnone : taken (isFree s'.mem) [HEAP_ST] = [] := taken_cons_of_free hfree
    dsimp only
    rw [hnone]
    exact List.Perm.refl _

end Ych.Krnlheap
