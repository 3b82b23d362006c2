import Ych.Base.Coalescing
import Ych.Memory.HeapSteps

/-! Giving a block back: the writes of `HeapRelinquish` merge it with its free neighbours, on
either side or on both, and leave every other block as it was, payload included. -/
namespace Ych.Krnlheap
open Words Bitmap ByteMemory Links Coalescing

variable {s : HeapState} {m₀ m m' : Bytes} {a b h k p q ptr : Nat} {hs l r : List Nat}

theorem Chain.payload_clear {hd : Nat → HeapHeader} (hC : Chain hd a b hs) (hk : k ∈ hs) :
    ∀ h ∈ hs, Clear h (k + SIZEOF_HEADER) (blockEnd hd k) := by
  intro h hh
  have := blockEnd_gt hd h
  unfold Clear
  by_cases heq : h = k
  · exact Or.inl (heq ▸ le_rfl)
  · rcases hC.tiles.apart hh hk heq with hle | hle
    · exact Or.inl (by omega)
    · exact Or.inr hle

theorem header_setFree_other {v : Nat} (hC : Chain (header m) a b hs) (hh : h ∈ hs) (hk : k ∈ hs)
    (hne : k ≠ h) : header (setFree m h v) k = header m k :=
  header_congr (sameOn_setFree (hC.spaced h hh k hk hne))

theorem Chain.setFree {v : Nat} (hC : Chain (header m) a b hs) (hh : h ∈ hs) (hv : v < 256) :
    Chain (header (setFree m h v)) a b hs := by
  refine hC.congr fun k hk => ?_
  by_cases heq : k = h
  · rw [heq, header_setFree hv]
    exact ⟨rfl, rfl, rfl⟩
  · rw [header_setFree_other hC hh hk heq]
    exact ⟨rfl, rfl, rfl⟩

theorem Chain.same (hC : Chain (header m) a b hs) (hsame : ∀ k ∈ hs, header m' k = header m k) :
    Chain (header m') a b hs :=
  hC.congr fun k hk => by
    rw [hsame k hk]
    exact ⟨rfl, rfl, rfl⟩

theorem header_payloadOnly (hC : Chain (header m) a b hs) {c d : Nat} (hh : h ∈ hs)
    (hc : h + SIZEOF_HEADER ≤ c) (hd : d ≤ blockEnd (header m) h)
    (hsame : ∀ i, i < c ∨ d ≤ i → m' i = m i) :
    ∀ k ∈ hs, header m' k = header m k := by
  intro k hk
  have hclear := hC.payload_clear hh k hk
  refine header_congr fun i h1 h2 => hsame i ?_
  unfold Clear at hclear
  omega

def isFree (m : Bytes) (h : Nat) : Bool := bFree m h ≠ 0

theorem isFree_iff : isFree m h = true ↔ bFree m h ≠ 0 := decide_eq_true_iff

theorem not_isFree_iff : isFree m h = false ↔ bFree m h = 0 := by
  rw [isFree, decide_eq_false_iff_not, not_not]

structure Untouched (m m' : Bytes) (k : Nat) : Prop where
  size : (header m' k).payloadSize = (header m k).payloadSize
  free : (header m' k).bFree = (header m k).bFree
  bytes : SameOn m m' (k + SIZEOF_HEADER) (blockEnd (header m) k)

theorem Untouched.isFree_eq (hu : Untouched m m' k) : isFree m' k = isFree m k := by
  have hfree : bFree m' k = bFree m k := hu.free
  rw [isFree, isFree, hfree]

theorem Untouched.blockEnd_eq (hu : Untouched m m' k) :
    blockEnd (header m') k = blockEnd (header m) k := by
  rw [blockEnd, blockEnd, hu.size]

theorem Untouched.trans {m'' : Bytes} (hu : Untouched m m' k) (hu' : Untouched m' m'' k) :
    Untouched m m'' k := by
  have hbytes := hu'.bytes
  rw [hu.blockEnd_eq] at hbytes
  exact ⟨hu'.size.trans hu.size, hu'.free.trans hu.free, hu.bytes.trans hbytes⟩

theorem ChainStep.untouched (hstep : ChainStep m m' a b l r hs) (hk : k ∈ l ++ r) (hk' : k ∈ hs) :
    Untouched m m' k := by
  refine ⟨hstep.sizes k hk, hstep.frees k hk, hstep.only _ _ fun h hh => ?_⟩
  have hclear := hstep.chain.payload_clear hk' h hh
  rw [blockEnd, hstep.sizes k hk] at hclear
  exact hclear

theorem untouched_setFree {v : Nat} (hC : Chain (header m) a b hs) (hh : h ∈ hs) (hk : k ∈ hs)
    (hne : k ≠ h) : Untouched m (setFree m h v) k := by
  have hsame := header_setFree_other (v := v) hC hh hk hne
  exact ⟨by rw [hsame], by rw [hsame], sameOn_setFree (hC.payload_clear hk h hh)⟩

/-- The block `p` is free between `l` and `r`, no shorter than it was, all others untouched. -/
structure Merged (m₀ m : Bytes) (a b p : Nat) (l r : List Nat) : Prop where
  chain : Chain (header m) a b (l ++ p :: r)
  free : bFree m p ≠ 0
  flag : bFree m p = 1 ∨ bFree m p = bFree m₀ p
  grown : payloadSize m₀ p ≤ payloadSize m p
  same : ∀ k ∈ l ++ r, Untouched m₀ m k

theorem merged_setFree (hC : Chain (header m) a b (l ++ h :: r)) :
    Merged m (setFree m h 1) a b h l r := by
  have hh : h ∈ l ++ h :: r := List.mem_append_right l List.mem_cons_self
  have hself : header (setFree m h 1) h = { header m h with bFree := 1 } :=
    header_setFree (by decide)
  have hfree : bFree (setFree m h 1) h = 1 := by rw [bFree_eq, hself]
  refine ⟨hC.setFree hh (by decide), by rw [hfree]; exact Nat.one_ne_zero, Or.inl hfree, ?_,
    fun k hk => ?_⟩
  · rw [payloadSize_eq, payloadSize_eq, hself]
  · have hne : k ≠ h := fun heq => hC.middle_notMem (heq ▸ hk)
    exact untouched_setFree hC hh (mem_of_mem_append hk) hne

def swallowNext (m : Bytes) (p q : Nat) : Bytes :=
  swallowed m p (pNext m q) (payloadSize m p + (payloadSize m q + SIZEOF_HEADER))

theorem Merged.swallowNext (hM : Merged m₀ m a b p l (q :: r)) (hb : b < 2 ^ 64) :
    Merged m₀ (swallowNext m p q) a b p l r := by
  obtain ⟨hstep, hfree, hgrown⟩ := chainStep_swallowed hM.chain hb
  have hfree' : bFree (Krnlheap.swallowNext m p q) p = bFree m p := hfree
  refine ⟨hstep.chain, ?_, ?_, hM.grown.trans hgrown, fun k hk => ?_⟩
  · rw [hfree']
    exact hM.free
  · rw [hfree']
    exact hM.flag
  · have hk' : k ∈ l ++ q :: r := mem_of_mem_append hk
    exact (hM.same k hk').trans (hstep.untouched hk (mem_of_mem_append hk))

theorem Merged.swallowPrev (hM : Merged m₀ m a b p (l ++ [q]) r) (hb : b < 2 ^ 64)
    (hq : bFree m q ≠ 0) : Merged m₀ (Krnlheap.swallowNext m q p) a b q l r := by
  have hC := hM.chain
  rw [List.append_assoc, List.singleton_append] at hC
  have hsame := hM.same
  rw [List.append_assoc, List.singleton_append] at hsame
  have hqu : Untouched m₀ m q := hsame q (List.mem_append_right l List.mem_cons_self)
  obtain ⟨hstep, hfree, hgrown⟩ := chainStep_swallowed hC hb
  have hfree' : bFree (Krnlheap.swallowNext m q p) q = bFree m q := hfree
  have hsize : payloadSize m q = payloadSize m₀ q := hqu.size
  refine ⟨hstep.chain, ?_, Or.inr ?_, ?_, fun k hk => ?_⟩
  · rw [hfree']
    exact hq
  · rw [hfree']
    exact hqu.free
  · rw [← hsize]
    exact hgrown
  · exact (hsame k (mem_of_mem_append hk)).trans (hstep.untouched hk (mem_of_mem_append hk))

theorem merged_lt (hC : Chain (header m) a b (l ++ p :: q :: r)) (hb : b < 2 ^ 64) :
    payloadSize m p + (payloadSize m q + SIZEOF_HEADER) < 2 ^ 64 := by
  have hq : q ∈ l ++ p :: q :: r := mem_insert_iff.mpr (Or.inl rfl)
  have hpq : q = blockEnd (header m) p := hC.tiles_middle.2.1
  have hE : blockEnd (header m) p = p + SIZEOF_HEADER + payloadSize m p := rfl
  have hE' : blockEnd (header m) q = q + SIZEOF_HEADER + payloadSize m q := rfl
  have hend := (hC.tiles.within hq).2
  omega

/-- The three writes of a merge read the swallowed header before it is overwritten. -/
theorem swallowNext_eq (hC : Chain (header m) a b (l ++ p :: q :: r)) (hb : b < 2 ^ 64) :
    (let m₁ := setPayloadSize m p
      (wrap64 (payloadSize m p + (payloadSize m q + SIZEOF_HEADER)))
    let m₂ := setNext m₁ p (pNext m₁ q)
    if pNext m₂ q ≠ 0 then setPrev m₂ (pNext m₂ q) p else m₂) = swallowNext m p q := by
  have hp : p ∈ l ++ p :: q :: r := List.mem_append_right l List.mem_cons_self
  have hq : q ∈ l ++ p :: q :: r := mem_insert_iff.mpr (Or.inl rfl)
  have hne : q ≠ p := by
    have hpq : q = blockEnd (header m) p := hC.tiles_middle.2.1
    have := blockEnd_gt (header m) p
    unfold SIZEOF_HEADER at this
    omega
  have hclear := hC.spaced p hp q hq hne
  have hnext₁ : ∀ v, pNext (setPayloadSize m p v) q = pNext m q := fun v => by
    rw [pNext_eq, header_congr (sameOn_setPayloadSize hclear), ← pNext_eq]
  have hnext₂ : ∀ v w, pNext (setNext (setPayloadSize m p v) p w) q = pNext m q := fun v w => by
    rw [pNext_eq, header_congr (sameOn_setNext hclear), ← pNext_eq, hnext₁]
  dsimp only
  rw [wrap64_of_lt (merged_lt hC hb), hnext₁, hnext₂]
  rfl

theorem mergePrev_spec (hM : Merged m₀ m a b h l r) (hb : b < 2 ^ 64)
    (hnull : ¬(pPrev m h ≠ 0 ∧ bFree m (pPrev m h) ≠ 0 ∧ pNext m h = 0)) :
    ∃ l' p m', (if pPrev m h ≠ 0 ∧ bFree m (pPrev m h) ≠ 0 then
        let m₁ := setPayloadSize m (pPrev m h)
          (wrap64 (payloadSize m (pPrev m h) + (payloadSize m h + SIZEOF_HEADER)))
        let m₂ := setNext m₁ (pPrev m h) (pNext m h)
        (pPrev m h, setPrev m₂ (pNext m h) (pPrev m h))
      else (h, m)) = (p, m') ∧ Merged m₀ m' a b p l' r ∧
      (l' = l ∧ p = h ∧ (∀ k ∈ l.getLast?, isFree m₀ k = false) ∨
        l = l' ++ [p] ∧ isFree m₀ p = true) := by
  have hprev : pPrev m h = l.getLastD 0 := hM.chain.prev_eq
  have hsame : ∀ k ∈ l, isFree m k = isFree m₀ k := fun k hk =>
    (hM.same k (List.mem_append_left r hk)).isFree_eq
  by_cases hmerge : pPrev m h ≠ 0 ∧ bFree m (pPrev m h) ≠ 0
  · have hnext : pNext m h ≠ 0 := fun hzero => hnull ⟨hmerge.1, hmerge.2, hzero⟩
    rw [if_pos hmerge]
    rcases List.eq_nil_or_concat l with rfl | ⟨l, q, rfl⟩
    · exact absurd hprev hmerge.1
    · rw [List.concat_eq_append] at hM hprev hsame ⊢
      rw [getLastD_append, List.getLastD_cons, List.getLastD_nil] at hprev
      rw [hprev] at hmerge ⊢
      have hC := hM.chain
      rw [List.append_assoc, List.singleton_append] at hC
      have hres : setPrev (setNext (setPayloadSize m q
          (wrap64 (payloadSize m q + (payloadSize m h + SIZEOF_HEADER)))) q (pNext m h))
          (pNext m h) q = swallowNext m q h := by
        rw [swallowNext, swallowed, if_pos hnext, wrap64_of_lt (merged_lt hC hb)]
      dsimp only
      rw [hres]
      refine ⟨l, q, _, rfl, hM.swallowPrev hb hmerge.2, Or.inr ⟨rfl, ?_⟩⟩
      rw [← hsame q (List.mem_append_right l (List.mem_singleton_self q))]
      exact isFree_iff.mpr hmerge.2
  · rw [if_neg hmerge]
    refine ⟨l, h, m, rfl, hM, Or.inl ⟨rfl, rfl, fun k hk => ?_⟩⟩
    have hmem : k ∈ l := List.mem_of_getLast? hk
    have hlast : pPrev m h = k := by
      rw [hprev, List.getLastD_eq_getLast?, Option.mem_def.mp hk]
      rfl
    have hk0 : k ≠ 0 := fun hzero =>
      hM.chain.zero_notMem (hzero ▸ List.mem_append_left _ hmem)
    rw [← hsame k hmem, not_isFree_iff]
    by_contra hfree
    rw [hlast] at hmerge
    exact hmerge ⟨hk0, hfree⟩

theorem mergeNext_spec (hM : Merged m₀ m a b p l r) (hb : b < 2 ^ 64) :
    ∃ r' m', (if r.headD 0 ≠ 0 ∧ bFree m (r.headD 0) ≠ 0 then
        let m₁ := setPayloadSize m p
          (wrap64 (payloadSize m p + (payloadSize m (r.headD 0) + SIZEOF_HEADER)))
        let m₂ := setNext m₁ p (pNext m₁ (r.headD 0))
        let m₃ := if pNext m₂ (r.headD 0) ≠ 0 then setPrev m₂ (pNext m₂ (r.headD 0)) p else m₂
        some (true, { s with mem := m₃ })
      else some (true, { s with mem := m })) = some (true, { s with mem := m' }) ∧
      Merged m₀ m' a b p l r' ∧
      (r' = r ∧ (∀ k ∈ r.head?, isFree m₀ k = false) ∨ ∃ q, r = q :: r' ∧ isFree m₀ q = true) := by
  have hsame : ∀ k ∈ r, isFree m k = isFree m₀ k := fun k hk =>
    (hM.same k (List.mem_append_right l hk)).isFree_eq
  by_cases hnext : r.headD 0 ≠ 0 ∧ bFree m (r.headD 0) ≠ 0
  · cases r with
    | nil => exact absurd rfl hnext.1
    | cons q r =>
      rw [if_pos hnext, List.headD_cons]
      rw [List.headD_cons] at hnext
      have hres := swallowNext_eq hM.chain hb
      dsimp only at hres ⊢
      rw [hres]
      refine ⟨r, _, rfl, hM.swallowNext hb, Or.inr ⟨q, rfl, ?_⟩⟩
      rw [← hsame q List.mem_cons_self]
      exact isFree_iff.mpr hnext.2
  · rw [if_neg hnext]
    refine ⟨r, m, rfl, hM, Or.inl ⟨rfl, fun k hk => ?_⟩⟩
    have hmem : k ∈ r := List.mem_of_head? hk
    have hhead : r.headD 0 = k := by
      rw [List.headD_eq_head?_getD, Option.mem_def.mp hk]
      rfl
    have hk0 : k ≠ 0 := fun hzero =>
      hM.chain.zero_notMem (hzero ▸ List.mem_append_right l (List.mem_cons_of_mem p hmem))
    rw [← hsame k hmem, not_isFree_iff]
    by_contra hfree
    rw [hhead] at hnext
    exact hnext ⟨hk0, hfree⟩

def headerOf (m : Bytes) (ptr : Nat) : Nat :=
  sub64 ptr (load m (sub64 ptr SIZEOF_OFFSET) SIZEOF_OFFSET)

/-- The last block of the list, behind a free one: `HeapRelinquish` would link back what follows. -/
def LastBehindFree (m : Bytes) (h : Nat) : Prop :=
  pPrev m h ≠ 0 ∧ bFree m (pPrev m h) ≠ 0 ∧ pNext m h = 0

theorem LastBehindFree.nil (hlast : LastBehindFree m h)
    (hC : Chain (header m) a b (l ++ h :: r)) : r = [] := by
  by_contra hr
  have hhead : pNext m h = r.headD 0 := hC.next_eq
  have hmem : r.headD 0 ∈ l ++ h :: r :=
    List.mem_append_right l (List.mem_cons_of_mem h (headD_mem hr))
  rw [← hhead, hlast.2.2] at hmem
  exact hC.zero_notMem hmem

theorem lastBehindFree_setFree (hC : Chain (header m) a b (l ++ h :: r)) :
    LastBehindFree (setFree m h 1) h ↔ LastBehindFree m h := by
  have hh : h ∈ l ++ h :: r := List.mem_append_right l List.mem_cons_self
  have hself : header (setFree m h 1) h = { header m h with bFree := 1 } :=
    header_setFree (by decide)
  have hprev : pPrev (setFree m h 1) h = pPrev m h := by
    rw [pPrev_eq, hself]
    rfl
  have hnext : pNext (setFree m h 1) h = pNext m h := by
    rw [pNext_eq, hself]
    rfl
  have hprev' : pPrev m h = l.getLastD 0 := hC.prev_eq
  unfold LastBehindFree
  rw [hprev, hnext]
  by_cases hl : l = []
  · rw [hl] at hprev'
    exact iff_of_false (fun hlast => hlast.1 hprev') (fun hlast => hlast.1 hprev')
  · have hmem : pPrev m h ∈ l := by
      rw [hprev', List.getLastD_eq_getLast?, List.getLast?_eq_getLast_of_ne_nil hl]
      exact List.getLast_mem hl
    have hne : pPrev m h ≠ h := fun heq =>
      hC.middle_notMem (heq ▸ List.mem_append_left r hmem)
    have hsame := header_setFree_other (v := 1) hC hh (List.mem_append_left _ hmem) hne
    have hfree : bFree (setFree m h 1) (pPrev m h) = bFree m (pPrev m h) := by
      rw [bFree_eq, hsame]
      rfl
    rw [hfree]

/-- Giving back the taken block `h`: the last one behind a free one ends in a write through NULL,
any other is merged with its free neighbours. -/
theorem heapRelinquish_merges (hC : Chain (header s.mem) a b (l ++ h :: r)) (hb : b < 2 ^ 64)
    (hlo : s.vaddrHeapSt ≤ ptr) (hhi : ptr < s.vaddrHeapNd) (hoff : headerOf s.mem ptr = h)
    (htaken : bFree s.mem h = 0) :
    LastBehindFree s.mem h ∧ heapRelinquish s ptr = none ∨
    ¬LastBehindFree s.mem h ∧ ∃ l' p r' m',
      heapRelinquish s ptr = some (true, { s with mem := m' }) ∧
      Merges (isFree s.mem) l h r l' p r' ∧ Merged s.mem m' a b p l' r' := by
  have hM := merged_setFree hC
  unfold headerOf at hoff
  rw [heapRelinquish, if_neg (by omega)]
  dsimp only
  rw [hoff, if_neg (not_not.mpr htaken), ← lastBehindFree_setFree hC]
  generalize setFree s.mem h 1 = m at hM ⊢
  by_cases hnull : pPrev m h ≠ 0 ∧ bFree m (pPrev m h) ≠ 0 ∧ pNext m h = 0
  · rw [if_pos hnull]
    exact Or.inl ⟨hnull, rfl⟩
  · have hnext : pNext m h = r.headD 0 := hM.chain.next_eq
    obtain ⟨l', p, m₁, hprev, hM₁, hleft⟩ := mergePrev_spec hM hb hnull
    dsimp only at hprev
    rw [if_neg hnull, hprev, hnext]
    dsimp only
    obtain ⟨r', m₂, hres, hM₂, hright⟩ := mergeNext_spec (s := s) hM₁ hb
    exact Or.inr ⟨hnull, l', p, r', m₂, hres, ⟨hleft, hright⟩, hM₂⟩

end Ych.Krnlheap
