import Ych.Memory.HeapBlocks

/-! What the heap's code writes: splitting a block and swallowing a neighbour change the row of
blocks as intended and leave every byte outside the headers alone. -/
namespace Ych.Krnlheap
open Words Bitmap ByteMemory Links

variable {m m' : Bytes} {a b p q i : Nat} {l r hs : List Nat}

def Spaced (hs : List Nat) : Prop :=
  ∀ h ∈ hs, ∀ k ∈ hs, k ≠ h → Clear h k (k + SIZEOF_HEADER)

theorem Chain.spaced {hd : Nat → HeapHeader} (hC : Chain hd a b hs) : Spaced hs := by
  intro h hh k hk hne
  have := blockEnd_gt hd h
  have := blockEnd_gt hd k
  unfold Clear
  rcases hC.tiles.apart hh hk hne.symm with hle | hle
  · omega
  · omega

def HeadersOnly (m m' : Bytes) (hs : List Nat) : Prop :=
  ∀ a b, (∀ h ∈ hs, Clear h a b) → SameOn m m' a b

theorem HeadersOnly.refl : HeadersOnly m m hs := fun _ _ _ _ _ _ => rfl

theorem HeadersOnly.trans {m'' : Bytes} (h : HeadersOnly m m' hs) (h' : HeadersOnly m' m'' hs) :
    HeadersOnly m m'' hs :=
  fun a b hc => (h a b hc).trans (h' a b hc)

theorem headersOnly_setPrev {h v : Nat} (hh : h ∈ hs) : HeadersOnly m (setPrev m h v) hs :=
  fun _ _ hc => sameOn_setPrev (hc h hh)

theorem headersOnly_setNext {h v : Nat} (hh : h ∈ hs) : HeadersOnly m (setNext m h v) hs :=
  fun _ _ hc => sameOn_setNext (hc h hh)

theorem headersOnly_setPayloadSize {h v : Nat} (hh : h ∈ hs) :
    HeadersOnly m (setPayloadSize m h v) hs :=
  fun _ _ hc => sameOn_setPayloadSize (hc h hh)

theorem headersOnly_setFree {h v : Nat} (hh : h ∈ hs) : HeadersOnly m (setFree m h v) hs :=
  fun _ _ hc => sameOn_setFree (hc h hh)

theorem header_fresh {n rest : Nat} (hp : p < 2 ^ 64) (hn : n < 2 ^ 64) (hr : rest < 2 ^ 64) :
    header (setPayloadSize (setFree (setNext (setPrev m i p) i n) i 1) i rest) i =
      ⟨p, n, rest, 1⟩ := by
  rw [header_setPayloadSize hr, header_setFree (by decide), header_setNext hn, header_setPrev hp]

theorem pNext_eq (m : Bytes) (h : Nat) : pNext m h = (header m h).pNext := rfl
theorem pPrev_eq (m : Bytes) (h : Nat) : pPrev m h = (header m h).pPrev := rfl
theorem payloadSize_eq (m : Bytes) (h : Nat) : payloadSize m h = (header m h).payloadSize := rfl
theorem bFree_eq (m : Bytes) (h : Nat) : bFree m h = (header m h).bFree := rfl

theorem pNext_lt (m : Bytes) (h : Nat) : pNext m h < 2 ^ 64 := load_lt m (h + 8) 8

theorem headD_or {l r : List Nat} (hr : ∀ k ∈ r, k ∈ l) : r.headD 0 = 0 ∨ r.headD 0 ∈ l := by
  cases r with
  | nil => exact Or.inl rfl
  | cons k r => exact Or.inr (hr k List.mem_cons_self)

theorem header_relink {n d k : Nat} (hsp : Spaced hs) (h0 : 0 ∉ hs) (hn : n = 0 ∨ n ∈ hs)
    (hd : d < 2 ^ 64) (hk : k ∈ hs) :
    header (if n ≠ 0 then setPrev m n d else m) k =
      { header m k with pPrev := if k = n then d else (header m k).pPrev } := by
  by_cases hn0 : n = 0
  · have hne : k ≠ n := fun h => h0 (hn0 ▸ h ▸ hk)
    rw [if_neg (not_not.mpr hn0), if_neg hne]
  · rw [if_pos hn0]
    by_cases heq : k = n
    · rw [if_pos heq, heq, header_setPrev hd]
    · rw [if_neg heq, header_congr (sameOn_setPrev (hsp n (hn.resolve_left hn0) k hk heq))]

theorem headersOnly_relink {n d : Nat} (hn : n = 0 ∨ n ∈ hs) :
    HeadersOnly m (if n ≠ 0 then setPrev m n d else m) hs := by
  by_cases hn0 : n = 0
  · rw [if_neg (not_not.mpr hn0)]
    exact HeadersOnly.refl
  · rw [if_pos hn0]
    exact headersOnly_setPrev (hn.resolve_left hn0)

def reseam (m : Bytes) (n d p c v : Nat) : Bytes :=
  setPayloadSize (setNext (if n ≠ 0 then setPrev m n d else m) p c) p v

theorem header_reseam {n d c v k : Nat} (hsp : Spaced hs) (h0 : 0 ∉ hs) (hn : n = 0 ∨ n ∈ hs)
    (hd : d < 2 ^ 64) (hc : c < 2 ^ 64) (hv : v < 2 ^ 64) (hp : p ∈ hs) (hk : k ∈ hs) :
    header (reseam m n d p c v) k =
      { header m k with
        pPrev := if k = n then d else (header m k).pPrev
        pNext := if k = p then c else (header m k).pNext
        payloadSize := if k = p then v else (header m k).payloadSize } := by
  by_cases heq : k = p
  · rw [if_pos heq, if_pos heq, heq, reseam, header_setPayloadSize hv, header_setNext hc,
      header_relink hsp h0 hn hd hp]
  · have hclear := hsp p hp k hk heq
    rw [if_neg heq, if_neg heq, reseam, header_congr (sameOn_setPayloadSize hclear),
      header_congr (sameOn_setNext hclear), header_relink hsp h0 hn hd hk]

theorem headersOnly_reseam {n d c v : Nat} (hn : n = 0 ∨ n ∈ hs) (hp : p ∈ hs) :
    HeadersOnly m (reseam m n d p c v) hs :=
  ((headersOnly_relink hn).trans (headersOnly_setNext hp)).trans (headersOnly_setPayloadSize hp)

theorem mem_insert_iff {k : Nat} : k ∈ l ++ p :: i :: r ↔ k = i ∨ k ∈ l ++ p :: r := by
  simp only [List.mem_append, List.mem_cons]
  tauto

theorem Chain.spaced_insert {hd : Nat → HeapHeader} (hC : Chain hd a b (l ++ p :: r))
    (hlo : p + SIZEOF_HEADER ≤ i) (hhi : i + SIZEOF_HEADER ≤ blockEnd hd p) :
    Spaced (l ++ p :: i :: r) := by
  have hpmem : p ∈ l ++ p :: r := List.mem_append_right l List.mem_cons_self
  have hinside : ∀ k ∈ l ++ p :: r, k + SIZEOF_HEADER ≤ i ∨ i + SIZEOF_HEADER ≤ k := by
    intro k hk
    by_cases heq : k = p
    · rw [heq]
      exact Or.inl hlo
    · have := blockEnd_gt hd k
      rcases hC.tiles.apart hk hpmem heq with hle | hle
      · omega
      · omega
  intro h hh k hk hne
  unfold Clear
  rcases mem_insert_iff.mp hh with rfl | hh'
  · rcases mem_insert_iff.mp hk with rfl | hk'
    · exact absurd rfl hne
    · have := hinside k hk'
      omega
  · rcases mem_insert_iff.mp hk with rfl | hk'
    · have := hinside h hh'
      omega
    · exact hC.spaced h hh' k hk' hne

/-- What a step does to the row, seen from the blocks it leaves as they were. -/
structure ChainStep (m m' : Bytes) (a b : Nat) (l r hs : List Nat) : Prop where
  chain : Chain (header m') a b hs
  sizes : ∀ k ∈ l ++ r, (header m' k).payloadSize = (header m k).payloadSize
  frees : ∀ k ∈ l ++ r, (header m' k).bFree = (header m k).bFree
  only : HeadersOnly m m' hs

theorem heapCanSplitAt_iff (hend : blockEnd (header m) p < 2 ^ 64) (hlo : p ≤ i)
    (hhi : i ≤ blockEnd (header m) p) : heapCanSplitAt m p (i - p) = true ↔
      i + SIZEOF_HEADER + HEAP_MIN_PAYLOAD_SIZE ≤ blockEnd (header m) p := by
  have hE : p + SIZEOF_HEADER + payloadSize m p = blockEnd (header m) p := rfl
  have hin : p + (i - p) = i := by omega
  rw [heapCanSplitAt, hE, wrap64_of_lt hend, hin, wrap64_of_lt (by omega),
    sub64_of_le (by omega) hend, sub64_of_le hhi hend, if_neg (by omega), decide_eq_true_eq]
  omega

theorem heapTrySplitAt_small (hend : blockEnd (header m) p < 2 ^ 64) (hlo : p ≤ i)
    (hhi : i ≤ blockEnd (header m) p)
    (hroom : ¬i + SIZEOF_HEADER + HEAP_MIN_PAYLOAD_SIZE ≤ blockEnd (header m) p) :
    (heapTrySplitAt m p (i - p)).2 = m := by
  have hcan : ¬heapCanSplitAt m p (i - p) = true := by
    rw [heapCanSplitAt_iff hend hlo hhi]
    exact hroom
  rw [heapTrySplitAt, Bool.eq_false_of_not_eq_true hcan]
  rfl

theorem heapTrySplitAt_eq (hend : blockEnd (header m) p < 2 ^ 64)
    (hlo : p + SIZEOF_HEADER ≤ i)
    (hhi : i + SIZEOF_HEADER + HEAP_MIN_PAYLOAD_SIZE ≤ blockEnd (header m) p)
    (hsp : Spaced hs) (h0 : 0 ∉ hs) (hp : p ∈ hs) (hi : i ∈ hs)
    (hn : pNext m p = 0 ∨ pNext m p ∈ hs) :
    ∃ m', (heapTrySplitAt m p (i - p)).2 =
        reseam m' (pNext m p) i p i (i - p - SIZEOF_HEADER) ∧
      header m' i = ⟨p, pNext m p, blockEnd (header m) p - i - SIZEOF_HEADER, 1⟩ ∧
      (∀ k ∈ hs, k ≠ i → header m' k = header m k) ∧ HeadersOnly m m' hs := by
  have hE : p + SIZEOF_HEADER + payloadSize m p = blockEnd (header m) p := rfl
  have hcan : heapCanSplitAt m p (i - p) = true :=
    (heapCanSplitAt_iff hend (by omega) (by omega)).mpr hhi
  have hpi : p ≠ i := by
    unfold SIZEOF_HEADER at hlo
    omega
  have hin : p + (i - p) = i := by omega
  have hnext : pNext (setPrev m i p) p = pNext m p := by
    rw [pNext_eq, header_congr (sameOn_setPrev (hsp i hi p hp hpi)), ← pNext_eq]
  have hgo : ¬(!heapCanSplitAt m p (i - p)) = true := by
    rw [hcan]
    decide
  rw [heapTrySplitAt, if_neg hgo, hE, wrap64_of_lt hend, hin, wrap64_of_lt (by omega)]
  dsimp only
  rw [sub64_of_le (by omega) hend, sub64_of_le (by omega) (by omega), hnext]
  generalize hm4 : setPayloadSize (setFree (setNext (setPrev m i p) i (pNext m p)) i 1) i
    (blockEnd (header m) p - i - SIZEOF_HEADER) = m4
  have hfresh : header m4 i = ⟨p, pNext m p, blockEnd (header m) p - i - SIZEOF_HEADER, 1⟩ := by
    rw [← hm4]
    exact header_fresh (by omega) (pNext_lt m p) (by omega)
  have honly : HeadersOnly m m4 hs := by
    rw [← hm4]
    exact (((headersOnly_setPrev hi).trans (headersOnly_setNext hi)).trans
      (headersOnly_setFree hi)).trans (headersOnly_setPayloadSize hi)
  have hsame : ∀ k ∈ hs, k ≠ i → header m4 k = header m k := by
    intro k hk hne
    have hclear := hsp i hi k hk hne
    rw [← hm4, header_congr (sameOn_setPayloadSize hclear), header_congr (sameOn_setFree hclear),
      header_congr (sameOn_setNext hclear), header_congr (sameOn_setPrev hclear)]
  have hn4 : pNext m4 i = pNext m p := by rw [pNext_eq, hfresh]
  rw [hn4]
  have hsize : payloadSize (setNext (if pNext m p ≠ 0 then setPrev m4 (pNext m p) i else m4) p i) p =
      payloadSize m p := by
    rw [payloadSize_eq, header_setNext (by omega), header_relink hsp h0 hn (by omega) hp,
      hsame p hp hpi]
    rfl
  have hv : sub64 (payloadSize m p) (blockEnd (header m) p - i) = i - p - SIZEOF_HEADER := by
    rw [sub64_of_le (by omega) (by omega)]
    omega
  rw [hsize, hv]
  exact ⟨m4, rfl, hfresh, hsame, honly⟩

theorem Chain.mem_next {hd : Nat → HeapHeader} (hC : Chain hd a b (l ++ p :: r)) :
    (hd p).pNext = 0 ∨ (hd p).pNext ∈ l ++ p :: r := by
  rw [hC.next_eq]
  exact headD_or fun k hk => List.mem_append_right l (List.mem_cons_of_mem p hk)

theorem Chain.ne_next {hd : Nat → HeapHeader} (hC : Chain hd a b (l ++ p :: r)) :
    p ≠ (hd p).pNext := by
  have hnd := hC.tiles.nodup
  have h0 := hC.zero_notMem
  rw [List.append_cons] at hnd h0
  rw [hC.next_eq]
  exact ne_headD_right hnd h0 (List.mem_append_right l (List.mem_singleton_self p))

theorem Chain.middle_notMem {hd : Nat → HeapHeader} (hC : Chain hd a b (l ++ p :: r)) :
    p ∉ l ++ r := by
  have hnd := hC.tiles.nodup
  rw [List.nodup_middle] at hnd
  exact (List.nodup_cons.mp hnd).1

theorem mem_of_mem_append {k : Nat} (hk : k ∈ l ++ r) : k ∈ l ++ p :: r := by
  simp only [List.mem_append, List.mem_cons] at hk ⊢
  tauto

theorem mem_of_ne {h k : Nat} (hk : k ∈ l ++ h :: r) (hne : k ≠ h) : k ∈ l ++ r := by
  simp only [List.mem_append, List.mem_cons] at hk ⊢
  tauto

/-- The headers behind the writes of both steps: `p` goes on at `c` with another size, and the
block behind the seam comes after `d`. -/
structure Reseamed (m m' : Bytes) (l r hs : List Nat) (p c v d : Nat) : Prop where
  self : header m' p = { header m p with pNext := c, payloadSize := v }
  others : ∀ k ∈ l ++ r, header m' k =
    { header m k with pPrev := if k = r.headD 0 then d else (header m k).pPrev }
  only : HeadersOnly m m' hs

section Reseamed
variable {c v d : Nat}

theorem Reseamed.seam (h : Reseamed m m' l r hs p c v d) :
    SeamUpdate (header m) (header m') l r p c d where
  prevSame := by rw [h.self]
  next := by rw [h.self]
  prev := fun k hk => by rw [h.others k hk]
  nextSame := fun k hk => by rw [h.others k hk]
  sizeSame := fun k hk => by rw [h.others k hk]

theorem Reseamed.step (h : Reseamed m m' l r hs p c v d) (hC : Chain (header m') a b hs) :
    ChainStep m m' a b l r hs where
  chain := hC
  sizes := h.seam.sizeSame
  frees := fun k hk => by rw [h.others k hk]
  only := h.only

theorem Reseamed.blockEnd_self (h : Reseamed m m' l r hs p c v d) :
    blockEnd (header m') p = p + SIZEOF_HEADER + v := by
  rw [blockEnd, h.self]

end Reseamed

theorem Chain.inside_notMem {hd : Nat → HeapHeader} (hC : Chain hd a b (l ++ p :: r))
    (hlo : p + SIZEOF_HEADER ≤ i) (hhi : i + SIZEOF_HEADER ≤ blockEnd hd p) :
    i ∉ l ++ p :: r := by
  intro hi
  have hpmem : p ∈ l ++ p :: r := List.mem_append_right l List.mem_cons_self
  have hend := blockEnd_gt hd i
  unfold SIZEOF_HEADER at hlo hhi hend
  rcases hC.tiles.apart hi hpmem (by omega) with hle | hle
  · omega
  · omega

theorem heapTrySplitAt_reseamed (hC : Chain (header m) a b (l ++ p :: r)) (hb : b < 2 ^ 64)
    (hlo : p + SIZEOF_HEADER ≤ i)
    (hhi : i + SIZEOF_HEADER + HEAP_MIN_PAYLOAD_SIZE ≤ blockEnd (header m) p) :
    Reseamed m (heapTrySplitAt m p (i - p)).2 l r (l ++ p :: i :: r) p i
        (i - p - SIZEOF_HEADER) i ∧
      header (heapTrySplitAt m p (i - p)).2 i =
        ⟨p, pNext m p, blockEnd (header m) p - i - SIZEOF_HEADER, 1⟩ := by
  have hpmem : p ∈ l ++ p :: r := List.mem_append_right l List.mem_cons_self
  have hend := (hC.tiles.within hpmem).2
  have hi0 : i ≠ 0 := by
    unfold SIZEOF_HEADER at hlo
    omega
  have hinot : i ∉ l ++ p :: r := hC.inside_notMem hlo (by omega)
  have hsp : Spaced (l ++ p :: i :: r) := hC.spaced_insert (by omega) (by omega)
  have h0 : 0 ∉ l ++ p :: i :: r := by
    rw [mem_insert_iff, not_or]
    exact ⟨hi0.symm, hC.zero_notMem⟩
  have hp : p ∈ l ++ p :: i :: r := mem_insert_iff.mpr (Or.inr hpmem)
  have hi : i ∈ l ++ p :: i :: r := mem_insert_iff.mpr (Or.inl rfl)
  have hn : pNext m p = 0 ∨ pNext m p ∈ l ++ p :: i :: r :=
    hC.mem_next.imp_right fun h => mem_insert_iff.mpr (Or.inr h)
  have hin : i ≠ pNext m p := by
    rcases hC.mem_next with hz | hmem
    · exact fun heq => hi0 (heq.trans hz)
    · exact fun heq => hinot (heq ▸ hmem)
  have hpn : p ≠ pNext m p := hC.ne_next
  have hip : i ≠ p := fun heq => hinot (heq ▸ hpmem)
  obtain ⟨m4, heq, hfresh, hsame, honly⟩ :=
    heapTrySplitAt_eq (by omega) (by omega) hhi hsp h0 hp hi hn
  have hhdr := fun k hk => header_reseam (m := m4) (d := i) (c := i) (k := k)
    (v := i - p - SIZEOF_HEADER) hsp h0 hn (by omega) (by omega) (by omega) hp hk
  rw [heq]
  refine ⟨⟨?_, fun k hk => ?_, honly.trans (headersOnly_reseam hn hp)⟩, ?_⟩
  · rw [hhdr p hp, hsame p hp hip.symm, if_neg hpn, if_pos rfl, if_pos rfl]
  · have hk' := mem_of_mem_append (p := p) hk
    have hki : k ≠ i := fun heq => hinot (heq ▸ hk')
    have hkp : k ≠ p := fun heq => hC.middle_notMem (heq ▸ hk)
    rw [hhdr k (mem_insert_iff.mpr (Or.inr hk')), hsame k (mem_insert_iff.mpr (Or.inr hk')) hki,
      if_neg hkp, if_neg hkp, pNext_eq, hC.next_eq]
  · rw [hhdr i hi, hfresh, if_neg hin, if_neg hip, if_neg hip]

theorem chainStep_split (hC : Chain (header m) a b (l ++ p :: r)) (hb : b < 2 ^ 64)
    (hlo : p + SIZEOF_HEADER ≤ i)
    (hhi : i + SIZEOF_HEADER + HEAP_MIN_PAYLOAD_SIZE ≤ blockEnd (header m) p) :
    ChainStep m (heapTrySplitAt m p (i - p)).2 a b l r (l ++ p :: i :: r) ∧
      blockEnd (header (heapTrySplitAt m p (i - p)).2) p = i ∧
      blockEnd (header (heapTrySplitAt m p (i - p)).2) i = blockEnd (header m) p ∧
      (header (heapTrySplitAt m p (i - p)).2 i).bFree = 1 := by
  obtain ⟨hre, hnew⟩ := heapTrySplitAt_reseamed hC hb hlo hhi
  generalize (heapTrySplitAt m p (i - p)).2 = m' at *
  have hsize : blockEnd (header m') p = i := by
    rw [hre.blockEnd_self]
    omega
  have hrest : blockEnd (header m') i = blockEnd (header m) p := by
    rw [blockEnd, hnew]
    dsimp only
    omega
  have hlinks : (header m' i).pPrev = p ∧ (header m' i).pNext = (header m p).pNext := by
    rw [hnew]
    exact ⟨rfl, rfl⟩
  exact ⟨hre.step (hC.split hre.seam hsize ⟨hlinks.1, hlinks.2, hrest⟩), hsize, hrest,
    by rw [hnew]⟩

def swallowed (m : Bytes) (p n v : Nat) : Bytes :=
  if n ≠ 0 then setPrev (setNext (setPayloadSize m p v) p n) n p
  else setNext (setPayloadSize m p v) p n

theorem Spaced.sublist {ks : List Nat} (h : Spaced hs) (hsub : ks ⊆ hs) : Spaced ks :=
  fun i hi k hk => h i (hsub hi) k (hsub hk)

theorem swallowed_reseamed (hC : Chain (header m) a b (l ++ p :: q :: r)) (hb : b < 2 ^ 64) :
    Reseamed m
      (swallowed m p (pNext m q) (payloadSize m p + (payloadSize m q + SIZEOF_HEADER)))
      l r (l ++ p :: r) p (pNext m q) (payloadSize m p + (payloadSize m q + SIZEOF_HEADER)) p := by
  have hC' := hC
  rw [List.append_cons] at hC'
  have hsub : l ++ p :: r ⊆ l ++ p :: q :: r := fun k hk => by
    rw [mem_insert_iff]
    exact Or.inr hk
  have hsp : Spaced (l ++ p :: r) := hC.spaced.sublist hsub
  have h0 : 0 ∉ l ++ p :: r := fun h => hC.zero_notMem (hsub h)
  have hp : p ∈ l ++ p :: r := List.mem_append_right l List.mem_cons_self
  have hq : q ∈ l ++ p :: q :: r := mem_insert_iff.mpr (Or.inl rfl)
  have hnext : pNext m q = r.headD 0 := hC'.next_eq
  have hn : pNext m q = 0 ∨ pNext m q ∈ l ++ p :: r := by
    rw [hnext]
    exact headD_or fun k hk => List.mem_append_right l (List.mem_cons_of_mem p hk)
  have hnlt := pNext_lt m q
  have hplt := hC.tiles.within (hsub hp)
  have hqend := (hC.tiles.within hq).2
  have hqp : q = blockEnd (header m) p := hC.tiles_middle.2.1
  have hE : p + SIZEOF_HEADER + payloadSize m p = blockEnd (header m) p := rfl
  have hE' : q + SIZEOF_HEADER + payloadSize m q = blockEnd (header m) q := rfl
  have hpn : p ≠ pNext m q := by
    have hnd := hC.tiles.nodup
    have hz := hC.zero_notMem
    rw [List.append_cons, List.append_cons] at hnd hz
    rw [hnext]
    exact ne_headD_right hnd hz (by simp)
  have hv : payloadSize m p + (payloadSize m q + SIZEOF_HEADER) < 2 ^ 64 := by omega
  generalize payloadSize m p + (payloadSize m q + SIZEOF_HEADER) = v at *
  generalize pNext m q = n at *
  refine ⟨?_, fun k hk => ?_, ?_⟩
  · rw [swallowed, header_relink hsp h0 hn (by omega) hp, header_setNext hnlt,
      header_setPayloadSize hv, if_neg hpn]
  · have hk' := mem_of_mem_append (p := p) hk
    have hkp : k ≠ p := fun heq => hC.middle_notMem (heq ▸ mem_of_mem_append hk)
    have hclear := hsp p hp k hk' hkp
    rw [swallowed, header_relink hsp h0 hn (by omega) hk', header_congr (sameOn_setNext hclear),
      header_congr (sameOn_setPayloadSize hclear), hnext]
  · rw [swallowed]
    exact ((headersOnly_setPayloadSize hp).trans (headersOnly_setNext hp)).trans
      (headersOnly_relink hn)

theorem chainStep_swallowed (hC : Chain (header m) a b (l ++ p :: q :: r)) (hb : b < 2 ^ 64) :
    ChainStep m (swallowed m p (pNext m q) (payloadSize m p + (payloadSize m q + SIZEOF_HEADER)))
        a b l r (l ++ p :: r) ∧
      (header (swallowed m p (pNext m q)
        (payloadSize m p + (payloadSize m q + SIZEOF_HEADER))) p).bFree = (header m p).bFree ∧
      payloadSize m p ≤ (header (swallowed m p (pNext m q)
        (payloadSize m p + (payloadSize m q + SIZEOF_HEADER))) p).payloadSize := by
  have hre := swallowed_reseamed hC hb
  have hqp : q = blockEnd (header m) p := hC.tiles_middle.2.1
  have hE : p + SIZEOF_HEADER + payloadSize m p = blockEnd (header m) p := rfl
  have hE' : q + SIZEOF_HEADER + payloadSize m q = blockEnd (header m) q := rfl
  have hend := hre.blockEnd_self
  refine ⟨hre.step (hC.swallow hre.seam (by omega)), by rw [hre.self], ?_⟩
  rw [hre.self]
  exact Nat.le_add_right _ _

end Ych.Krnlheap
