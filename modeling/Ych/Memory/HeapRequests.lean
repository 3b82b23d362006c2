import Mathlib.Data.List.Perm.Basic
import Ych.Memory.HeapRun

/-! Requests of the default alignment: the pointer into a block and what a granted request leaves
of the row, in a heap anywhere below the top of the address space. -/
namespace Ych.Krnlheap
open Words Bitmap ByteMemory Krnlmem Links

variable {s s' : HeapState} {m m' : Bytes} {a b h k n p q : Nat} {hs hs' l r : List Nat}

/-- The pointer that is handed out for a block, whatever the size of the request: the first
multiple of the default alignment with room for the back-offset. -/
def pointerOf (h : Nat) : Nat := (h + SIZEOF_HEADER + SIZEOF_OFFSET + 15) / 16 * 16

def slackOf (h : Nat) : Nat := pointerOf h - (h + SIZEOF_HEADER)

theorem pointerOf_eq (h : Nat) : pointerOf h = h + SIZEOF_HEADER + slackOf h ∧
    SIZEOF_OFFSET ≤ slackOf h ∧ slackOf h < HEAP_MIN_PAYLOAD_SIZE := by
  unfold slackOf pointerOf SIZEOF_HEADER SIZEOF_OFFSET HEAP_MIN_PAYLOAD_SIZE
  omega

theorem alignedPayload_default (hh : h + 43 ≤ 2 ^ 64) :
    alignedPayload h HEAP_DEFAULT_ALIGNMENT = (pointerOf h, slackOf h) := by
  have hdefault : HEAP_DEFAULT_ALIGNMENT = 16 := rfl
  have hspec := alignedPayload_spec (h := h) ⟨4, hdefault⟩ (by omega) (by omega)
  generalize alignedPayload h HEAP_DEFAULT_ALIGNMENT = r at hspec ⊢
  obtain ⟨p, d⟩ := r
  obtain ⟨⟨c, hdvd⟩, hp, hlo, hhi⟩ := hspec
  rw [hdefault] at hdvd hhi
  unfold slackOf pointerOf
  unfold SIZEOF_HEADER SIZEOF_OFFSET at *
  refine Prod.ext ?_ ?_
  · dsimp only at *
    omega
  · dsimp only at *
    omega

/-- Every block has room for the slack, and a taken one knows its pointer's distance. -/
structure Fit (m : Bytes) (h : Nat) : Prop where
  slack : slackOf h ≤ payloadSize m h
  flag : bFree m h ≤ 1
  offset : bFree m h = 0 →
    load m (pointerOf h - SIZEOF_OFFSET) SIZEOF_OFFSET = pointerOf h - h

theorem pointerOf_le (hslack : slackOf h ≤ payloadSize m h) :
    pointerOf h ≤ blockEnd (header m) h := by
  have hE : blockEnd (header m) h = h + SIZEOF_HEADER + payloadSize m h := rfl
  have hp := pointerOf_eq h
  omega

theorem Fit.pointerOf_le (hfit : Fit m h) : pointerOf h ≤ blockEnd (header m) h :=
  Krnlheap.pointerOf_le hfit.slack

theorem Fit.keep (hfit : Fit m h) (hu : Untouched m m' h) : Fit m' h := by
  obtain ⟨hp, hlo, hhi⟩ := pointerOf_eq h
  have hend := hfit.pointerOf_le
  have hsize : payloadSize m' h = payloadSize m h := hu.size
  have hfree : bFree m' h = bFree m h := hu.free
  refine ⟨?_, ?_, fun htaken => ?_⟩
  · rw [hsize]
    exact hfit.slack
  · rw [hfree]
    exact hfit.flag
  · rw [load_congr (hu.bytes.mono (by omega) (by omega))]
    rw [hfree] at htaken
    exact hfit.offset htaken

/-- What a granted request leaves of the row: the block `h` is taken, with room for the request
unless rounding wrapped around, and what was left over may be a free block of its own. -/
structure Handed (m m' : Bytes) (a b h n : Nat) (l r hs' : List Nat) : Prop where
  chain : Chain (header m') a b hs'
  taken : bFree m' h = 0
  fit : Fit m' h
  below : n + HEAP_DEFAULT_ALIGNMENT ≤ 2 ^ 64 → pointerOf h + n ≤ blockEnd (header m') h
  same : ∀ k ∈ l ++ r, Untouched m m' k
  rest : hs' = l ++ h :: r ∨
    ∃ i, hs' = l ++ h :: i :: r ∧ bFree m' i = 1 ∧ HEAP_MIN_PAYLOAD_SIZE ≤ payloadSize m' i

theorem handed_spec {size : Nat} (hC : Chain (header m) a b (l ++ h :: r)) (hb : b < 2 ^ 64)
    (hsize : size + slackOf h ≤ payloadSize m h)
    (hn : n + HEAP_DEFAULT_ALIGNMENT ≤ 2 ^ 64 → n ≤ size) :
    ∃ hs', Handed m (grantedBytes m h (pointerOf h) size) a b h n l r hs' := by
  have hE : blockEnd (header m) h = h + SIZEOF_HEADER + payloadSize m h := rfl
  have hhead : SIZEOF_HEADER = 25 := rfl
  have hmin : HEAP_MIN_PAYLOAD_SIZE = 32 := rfl
  obtain ⟨hp, hlo, hhi⟩ := pointerOf_eq h
  obtain ⟨hs', hg⟩ := grantedBytes_spec (pointerOf h) size hC hb (by omega) (by omega)
  generalize grantedBytes m h (pointerOf h) size = m' at hg ⊢
  have hend := hg.below
  have hE' : blockEnd (header m') h = h + SIZEOF_HEADER + payloadSize m' h := rfl
  have htaken := hg.taken
  have hoffset : load m' (pointerOf h - SIZEOF_OFFSET) SIZEOF_OFFSET = pointerOf h - h := by
    rw [hg.offset]
    exact Nat.mod_eq_of_lt (by omega)
  refine ⟨hs', hg.chain, htaken, ⟨by omega, by omega, fun _ => hoffset⟩, fun hfits => ?_, hg.same,
    hg.rest⟩
  have := hn hfits
  omega

theorem heapAcquire_handed (hroot : s.rootHeader = hs.headD 0) (hC : Chain (header s.mem) a b hs)
    (hb : b < 2 ^ 64) (hslack : ∀ h ∈ hs, slackOf h ≤ payloadSize s.mem h)
    (htop : ∀ h ∈ hs, h + 43 ≤ 2 ^ 64)
    (hround : k + HEAP_DEFAULT_ALIGNMENT ≤ 2 ^ 64 → k ≤ roundedSize n HEAP_DEFAULT_ALIGNMENT) :
    heapAcquire s n = some (0, s) ∨
    ∃ l h r hs' m', hs = l ++ h :: r ∧ isFree s.mem h = true ∧
      heapAcquire s n = some (pointerOf h, { s with mem := m' }) ∧
      Handed s.mem m' a b h k l r hs' := by
  by_cases hn : n = 0
  · refine Or.inl ?_
    rw [heapAcquire, heapAlignedAcquire, if_pos (Or.inl hn)]
  have hdefault : HEAP_DEFAULT_ALIGNMENT = 16 := rfl
  have ha : IsPowerOfTwo HEAP_DEFAULT_ALIGNMENT := ⟨4, hdefault⟩
  have h32 : HEAP_DEFAULT_ALIGNMENT < 2 ^ 32 := by decide
  cases hfind : hs.find? (passes s.mem (roundedSize n HEAP_DEFAULT_ALIGNMENT)
      HEAP_DEFAULT_ALIGNMENT) with
  | none => exact Or.inl (heapAlignedAcquire_none hroot hC hb ha h32 hn hfind)
  | some h =>
    have hh : h ∈ hs := List.mem_of_find?_eq_some hfind
    have hpass := List.find?_some hfind
    have hin := hC.tiles.within hh
    have hE : blockEnd (header s.mem) h = h + SIZEOF_HEADER + payloadSize s.mem h := rfl
    have hp := pointerOf_eq h
    have hslack' := hslack h hh
    have hlow := htop h hh
    rw [passes, alignedPayload_default hlow, Bool.and_eq_true, decide_eq_true_eq,
      decide_eq_true_eq, sub64_of_le hslack' (by omega)] at hpass
    have hroom : roundedSize n HEAP_DEFAULT_ALIGNMENT + slackOf h ≤ payloadSize s.mem h := by omega
    have hcall := heapAlignedAcquire_some (p := pointerOf h) hroot hC hb ha h32 hn hfind
      (congrArg Prod.fst (alignedPayload_default hlow)) (by omega) (by omega)
    obtain ⟨l, r, rfl⟩ := List.append_of_mem hh
    obtain ⟨hs', hhanded⟩ := handed_spec hC hb hroom hround
    exact Or.inr ⟨l, h, r, hs', _, rfl, isFree_iff.mpr hpass.1, hcall, hhanded⟩

structure Tiled (s : HeapState) (hs : List Nat) : Prop where
  root : s.rootHeader = hs.headD 0
  blocks : Blocks (header s.mem) s.vaddrHeapSt s.vaddrHeapNd hs
  fits : s.vaddrHeapNd < 2 ^ 64

structure Served (s s' : HeapState) (n p h : Nat) (l r hs' : List Nat) : Prop where
  heap : s' = { s with mem := s'.mem }
  aligned : HEAP_DEFAULT_ALIGNMENT ∣ p
  free : bFree s.mem h ≠ 0
  taken : bFree s'.mem h = 0
  above : h + SIZEOF_HEADER + SIZEOF_OFFSET ≤ p
  below : p + n ≤ blockEnd (header s'.mem) h
  offset : load s'.mem (p - SIZEOF_OFFSET) SIZEOF_OFFSET = p - h
  tiled : Tiled s' hs'
  same : ∀ k ∈ l ++ r, Untouched s.mem s'.mem k
  rest : hs' = l ++ h :: r ∨ ∃ i, hs' = l ++ h :: i :: r ∧ bFree s'.mem i ≠ 0

theorem Tiled.roomy (ht : Tiled s hs) (hh : h ∈ hs) : h + 43 ≤ 2 ^ 64 := by
  have hin := ht.blocks.tiles.within hh
  have hlarge : HEAP_MIN_PAYLOAD_SIZE ≤ payloadSize s.mem h := ht.blocks.large h hh
  have hE : blockEnd (header s.mem) h = h + SIZEOF_HEADER + payloadSize s.mem h := rfl
  have hfits := ht.fits
  unfold HEAP_MIN_PAYLOAD_SIZE at hlarge
  unfold SIZEOF_HEADER at hE
  omega

theorem Handed.served (ht : Tiled s (l ++ h :: r)) (hfree : bFree s.mem h ≠ 0)
    (hg : Handed s.mem m' s.vaddrHeapSt s.vaddrHeapNd h (max n HEAP_MIN_PAYLOAD_SIZE) l r hs')
    (hn : n ≤ 2 ^ 63) : Served s { s with mem := m' } n (pointerOf h) h l r hs' := by
  obtain ⟨hp, hlo, -⟩ := pointerOf_eq h
  have hmin : HEAP_MIN_PAYLOAD_SIZE = 32 := rfl
  have hdefault : HEAP_DEFAULT_ALIGNMENT = 16 := rfl
  have hE : blockEnd (header m') h = h + SIZEOF_HEADER + payloadSize m' h := rfl
  have hbelow := hg.below (by omega)
  have hlarge : HEAP_MIN_PAYLOAD_SIZE ≤ (header m' h).payloadSize := by
    have hsize : (header m' h).payloadSize = payloadSize m' h := rfl
    omega
  have hrest : hs' = l ++ h :: r ∨ ∃ i, hs' = l ++ h :: i :: r ∧ bFree m' i ≠ 0 := by
    refine hg.rest.imp_right fun ⟨i, hcut, hi, _⟩ => ⟨i, hcut, ?_⟩
    rw [hi]
    exact Nat.one_ne_zero
  have hend : pointerOf h + n ≤ blockEnd (header m') h := by omega
  exact ⟨rfl, ⟨_, Nat.mul_comm _ _⟩, hfree, hg.taken, by omega, hend,
    hg.fit.offset hg.taken, ⟨ht.root.trans (headD_of_rest hg.rest).symm,
      ht.blocks.of_rest hg.chain hg.same hlarge hg.rest, ht.fits⟩, hg.same, hrest⟩

/-- A request of up to 2^63 bytes is refused or served from one free block; all other blocks stay
as they are, and the heap stays tiled. -/
theorem heapAcquire_tiled (ht : Tiled s hs) (hn : n ≤ 2 ^ 63) :
    ∃ p s', heapAcquire s n = some (p, s') ∧
      (p = 0 ∧ s' = s ∨ p ≠ 0 ∧ ∃ l h r hs', hs = l ++ h :: r ∧ Served s s' n p h l r hs') := by
  have hslack : ∀ h ∈ hs, slackOf h ≤ payloadSize s.mem h := fun h hh =>
    (pointerOf_eq h).2.2.le.trans (ht.blocks.large h hh)
  have hround : max n HEAP_MIN_PAYLOAD_SIZE + HEAP_DEFAULT_ALIGNMENT ≤ 2 ^ 64 →
      max n HEAP_MIN_PAYLOAD_SIZE ≤ roundedSize n HEAP_DEFAULT_ALIGNMENT := by
    intro hfits
    have hdefault : HEAP_DEFAULT_ALIGNMENT = 16 := rfl
    have hspec := roundedSize_spec (n := n) ⟨4, hdefault⟩ (by omega) (by omega)
    omega
  rcases heapAcquire_handed ht.root ht.blocks.chain ht.fits hslack (fun h hh => ht.roomy hh)
    hround with hnone | ⟨l, h, r, hs', m', rfl, hfree, hsome, hg⟩
  · exact ⟨0, s, hnone, Or.inl ⟨rfl, rfl⟩⟩
  · have hp := pointerOf_eq h
    have hoff : SIZEOF_OFFSET = 2 := rfl
    exact ⟨_, _, hsome, Or.inr ⟨by omega, l, h, r, hs', rfl,
      hg.served ht (isFree_iff.mp hfree) hn⟩⟩

theorem Row.tiled (hrow : Row s hs) : Tiled s hs := by
  refine ⟨hrow.root, ?_, ?_⟩
  · rw [hrow.start, hrow.stop]
    exact hrow.blocks
  · rw [hrow.stop]
    decide

/-- The hole between the first and the third extent serves a request for 150 bytes. -/
theorem heapAcquire_tiled_secondGivenBack : ∃ z hs',
    heapAcquire secondGivenBack 150 = some (HEAP_ST + 176, z) ∧
      Served secondGivenBack z 150 (HEAP_ST + 176) (HEAP_ST + 144) [HEAP_ST]
        [HEAP_ST + 384, HEAP_ST + 480] hs' := by
  have hcalled : (heapAcquire secondGivenBack 150).map Prod.fst = some (HEAP_ST + 176) := by
    decide +kernel
  obtain ⟨p, z, hcall, hres⟩ := heapAcquire_tiled (n := 150) secondGivenBack_row.tiled (by decide)
  rw [hcall, Option.map_some, Option.some.injEq] at hcalled
  obtain rfl : p = HEAP_ST + 176 := hcalled
  obtain ⟨hzero, -⟩ | ⟨-, l, k, r, hs', hrow, hserved⟩ := hres
  · exact absurd hzero (by decide)
  -- the pointer is below the last two headers, and the first block is taken
  have habove := hserved.above
  have hfree := hserved.free
  rcases l with _ | ⟨_, _ | ⟨_, l⟩⟩
  · obtain ⟨rfl, rfl⟩ := List.cons.inj hrow
    exact absurd (by decide +kernel) hfree
  · simp only [List.cons_append, List.nil_append, List.cons.injEq] at hrow
    obtain ⟨rfl, rfl, rfl⟩ := hrow
    exact ⟨z, hs', hcall, hserved⟩
  · have hlate : k ∈ [HEAP_ST + 384, HEAP_ST + 480] := by
      simp only [List.cons_append, List.cons.injEq] at hrow
      rw [hrow.2.2]
      exact List.mem_append_right l List.mem_cons_self
    simp only [List.mem_cons, List.not_mem_nil, or_false] at hlate
    omega

end Ych.Krnlheap
