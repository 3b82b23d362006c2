import Ych.Memory.HeapRelease

/-! Granting a request: the back-offset below the pointer, the split and the flag of the block,
and what these writes leave of the row. -/
namespace Ych.Krnlheap
open Words Bitmap ByteMemory Links

variable {m m' : Bytes} {a b h k p size : Nat} {hs l r : List Nat}

def grantedBytes (m : Bytes) (h p size : Nat) : Bytes :=
  setFree (heapTrySplitAt (store m (p - SIZEOF_OFFSET) SIZEOF_OFFSET (p - h)) h (p + size - h)).2 h 0

/-- The block `h` between `l` and `r` is taken, with room for the request and the distance of its
pointer; what was left over may be a free block of its own. -/
structure GrantedAt (m m' : Bytes) (a b h p size : Nat) (l r hs : List Nat) : Prop where
  chain : Chain (header m') a b hs
  taken : bFree m' h = 0
  below : p + size ≤ blockEnd (header m') h
  offset : load m' (p - SIZEOF_OFFSET) SIZEOF_OFFSET = (p - h) % 2 ^ 16
  same : ∀ k ∈ l ++ r, Untouched m m' k
  rest : hs = l ++ h :: r ∨
    ∃ i, hs = l ++ h :: i :: r ∧ bFree m' i = 1 ∧ HEAP_MIN_PAYLOAD_SIZE ≤ payloadSize m' i

theorem headD_of_rest {P : Nat → Prop}
    (hrest : hs = l ++ h :: r ∨ ∃ i, hs = l ++ h :: i :: r ∧ P i) :
    hs.headD 0 = (l ++ h :: r).headD 0 := by
  rcases hrest with rfl | ⟨i, rfl, -⟩
  · rfl
  · rw [headD_append, headD_append]
    rfl

theorem mem_of_rest {P : Nat → Prop}
    (hrest : hs = l ++ h :: r ∨ ∃ i, hs = l ++ h :: i :: r ∧ P i) (hk : k ∈ l ++ h :: r) :
    k ∈ hs := by
  rcases hrest with rfl | ⟨i, rfl, -⟩
  · exact hk
  · exact mem_insert_iff.mpr (Or.inr hk)

theorem Blocks.of_rest (hB : Blocks (header m) a b (l ++ h :: r)) (hC : Chain (header m') a b hs)
    (hsame : ∀ k ∈ l ++ r, Untouched m m' k) (hlarge : HEAP_MIN_PAYLOAD_SIZE ≤ payloadSize m' h)
    (hrest : hs = l ++ h :: r ∨
      ∃ i, hs = l ++ h :: i :: r ∧ bFree m' i = 1 ∧ HEAP_MIN_PAYLOAD_SIZE ≤ payloadSize m' i) :
    Blocks (header m') a b hs := by
  have hold : ∀ k ∈ l ++ h :: r, HEAP_MIN_PAYLOAD_SIZE ≤ (header m' k).payloadSize := by
    intro k hk
    by_cases heq : k = h
    · rw [heq]
      exact hlarge
    · rw [(hsame k (mem_of_ne hk heq)).size]
      exact hB.large k hk
  refine hC.blocks fun k hk => ?_
  rcases hrest with rfl | ⟨i, rfl, -, hlarge'⟩
  · exact hold k hk
  · rcases mem_insert_iff.mp hk with rfl | hk
    · exact hlarge'
    · exact hold k hk

theorem untouched_offset {v : Nat} (hC : Chain (header m) a b hs) (hh : h ∈ hs)
    (hlo : h + SIZEOF_HEADER + SIZEOF_OFFSET ≤ p) (hhi : p ≤ blockEnd (header m) h) (hk : k ∈ hs) :
    header (store m (p - SIZEOF_OFFSET) SIZEOF_OFFSET v) k = header m k ∧
      (k ≠ h → Untouched m (store m (p - SIZEOF_OFFSET) SIZEOF_OFFSET v) k) := by
  have hstore : ∀ i, i < p - SIZEOF_OFFSET ∨ p ≤ i →
      store m (p - SIZEOF_OFFSET) SIZEOF_OFFSET v i = m i := by
    intro i hi
    rw [store, if_neg (by omega)]
  have hsame := header_payloadOnly hC hh (by omega) hhi hstore k hk
  refine ⟨hsame, fun hne => ⟨by rw [hsame], by rw [hsame], ?_⟩⟩
  have hclear := hC.tiles.apart hk hh hne
  exact fun i h1 h2 => hstore i (by omega)

theorem splitAt_spec {i : Nat} (hC : Chain (header m) a b (l ++ h :: r)) (hb : b < 2 ^ 64)
    (hlo : h + SIZEOF_HEADER ≤ i) (hhi : i ≤ blockEnd (header m) h) :
    ∃ hs, Chain (header (heapTrySplitAt m h (i - h)).2) a b hs ∧
      (∀ k ∈ l ++ h :: r, k ∈ hs) ∧
      (∀ k ∈ l ++ r, Untouched m (heapTrySplitAt m h (i - h)).2 k) ∧
      i ≤ blockEnd (header (heapTrySplitAt m h (i - h)).2) h ∧
      SameOn m (heapTrySplitAt m h (i - h)).2 (h + SIZEOF_HEADER) i ∧
      (hs = l ++ h :: r ∨ i ≠ h ∧ i ∈ hs ∧ hs = l ++ h :: i :: r ∧
        (header (heapTrySplitAt m h (i - h)).2 i).bFree = 1 ∧
        HEAP_MIN_PAYLOAD_SIZE ≤ (header (heapTrySplitAt m h (i - h)).2 i).payloadSize) := by
  have hh : h ∈ l ++ h :: r := List.mem_append_right l List.mem_cons_self
  have hin := hC.tiles.within hh
  have hhead : SIZEOF_HEADER = 25 := rfl
  by_cases hroom : i + SIZEOF_HEADER + HEAP_MIN_PAYLOAD_SIZE ≤ blockEnd (header m) h
  · obtain ⟨hstep, hend, hrest, hfree⟩ := chainStep_split hC hb hlo hroom
    have hmem : ∀ k ∈ l ++ h :: r, k ∈ l ++ h :: i :: r := fun k hk =>
      mem_insert_iff.mpr (Or.inr hk)
    refine ⟨_, hstep.chain, hmem,
      fun k hk => hstep.untouched hk (hmem k (mem_of_mem_append hk)), hend.ge, ?_,
      Or.inr ⟨by omega, mem_insert_iff.mpr (Or.inl rfl), rfl, hfree, ?_⟩⟩
    · refine hstep.only _ _ fun k hk => ?_
      have hclear := hstep.chain.payload_clear (hmem h hh) k hk
      rw [hend] at hclear
      exact hclear
    · rw [blockEnd] at hrest
      omega
  · rw [heapTrySplitAt_small (by omega) (by omega) hhi hroom]
    exact ⟨_, hC, fun k hk => hk, fun k _ => ⟨rfl, rfl, fun _ _ _ => rfl⟩, hhi,
      fun _ _ _ => rfl, Or.inl rfl⟩

theorem grantedBytes_spec (p size : Nat) (hC : Chain (header m) a b (l ++ h :: r)) (hb : b < 2 ^ 64)
    (hlo : h + SIZEOF_HEADER + SIZEOF_OFFSET ≤ p) (hhi : p + size ≤ blockEnd (header m) h) :
    ∃ hs, GrantedAt m (grantedBytes m h p size) a b h p size l r hs := by
  have hh : h ∈ l ++ h :: r := List.mem_append_right l List.mem_cons_self
  have hkeep := fun k hk =>
    untouched_offset (v := p - h) (k := k) hC hh hlo (by omega) hk
  have hword : load (store m (p - SIZEOF_OFFSET) SIZEOF_OFFSET (p - h)) (p - SIZEOF_OFFSET)
      SIZEOF_OFFSET = (p - h) % 2 ^ 16 := load_store _ _ _ _
  unfold grantedBytes
  generalize store m (p - SIZEOF_OFFSET) SIZEOF_OFFSET (p - h) = m₁ at hkeep hword ⊢
  have hC₁ : Chain (header m₁) a b (l ++ h :: r) := hC.same fun k hk => (hkeep k hk).1
  have hE₁ : blockEnd (header m₁) h = blockEnd (header m) h := by
    rw [blockEnd, blockEnd, (hkeep h hh).1]
  obtain ⟨hs, hC₂, hmem, hsame₂, hend, hbytes, hrest⟩ :=
    splitAt_spec (i := p + size) hC₁ hb (by omega) (by omega)
  generalize (heapTrySplitAt m₁ h (p + size - h)).2 = m₂ at hC₂ hsame₂ hend hbytes hrest ⊢
  have hh₂ := hmem h hh
  have hself : header (setFree m₂ h 0) h = { header m₂ h with bFree := 0 } :=
    header_setFree (by decide)
  have hE₂ : blockEnd (header (setFree m₂ h 0)) h = blockEnd (header m₂) h := by
    rw [blockEnd, blockEnd, hself]
  have hclear : Clear h (p - SIZEOF_OFFSET) (p - SIZEOF_OFFSET + SIZEOF_OFFSET) :=
    Or.inl (by omega)
  refine ⟨hs, hC₂.setFree hh₂ (by decide), ?_, by omega, ?_, fun k hk => ?_, ?_⟩
  · rw [bFree_eq, hself]
  · rw [load_congr (sameOn_setFree hclear), load_congr (hbytes.mono (by omega) (by omega)), hword]
  · have hne : k ≠ h := fun heq => hC.middle_notMem (heq ▸ hk)
    have hk' := mem_of_mem_append (p := h) hk
    exact (((hkeep k hk').2 hne).trans (hsame₂ k hk)).trans
      (untouched_setFree hC₂ hh₂ (hmem k hk') hne)
  · rcases hrest with hwhole | ⟨hne, hi, hcut, hfree, hlarge⟩
    · exact Or.inl hwhole
    · have hother : header (setFree m₂ h 0) (p + size) = header m₂ (p + size) :=
        header_setFree_other hC₂ hh₂ hi hne
      refine Or.inr ⟨_, hcut, ?_, ?_⟩
      · rw [bFree_eq, hother]
        exact hfree
      · rw [payloadSize_eq, hother]
        exact hlarge

end Ych.Krnlheap
