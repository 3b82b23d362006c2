import Ych.Base.Allocations
import Ych.Memory.HeapGrants

/-! The two operations of the kernel heap on a row of blocks: a safe request takes a block of
its own, giving one back merges free neighbours, and all other extents stay housed. -/
namespace Ych.Krnlheap
open Words Bitmap ByteMemory Krnlmem Links Runs Allocations

variable {s s' : HeapState} {m m' : Bytes} {hs l r : List Nat} {h k n alignment : Nat}

def HEAP_ST : Nat := 0xFFFFFF8000000000
def HEAP_ND : Nat := 0xFFFFFFC000000000

theorem alignUp_spec {a x : Nat} (ha : IsPowerOfTwo a) (h32 : a < 2 ^ 32)
    (hfit : x + a ≤ 2 ^ 64) :
    a ∣ krtlAlignUpToPowerOfTwo x a ∧ x ≤ krtlAlignUpToPowerOfTwo x a ∧
      krtlAlignUpToPowerOfTwo x a < x + a := by
  have hpos := ha.pos
  rw [krtlAlignUpToPowerOfTwo_eq ha h32, wrap64_of_lt (by omega)]
  refine ⟨Nat.dvd_mul_left _ _, ?_, ?_⟩
  · have hdiv := Nat.div_add_mod (x + (a - 1)) a
    have hmod := Nat.mod_lt (x + (a - 1)) hpos
    rw [Nat.mul_comm] at hdiv
    omega
  · have hle := Nat.div_mul_le_self (x + (a - 1)) a
    omega

theorem alignedPayload_spec (ha : IsPowerOfTwo alignment) (h32 : alignment < 2 ^ 32)
    (hh : h + alignment + 27 ≤ 2 ^ 64) :
    alignment ∣ (alignedPayload h alignment).1 ∧
      (alignedPayload h alignment).1 = h + SIZEOF_HEADER + (alignedPayload h alignment).2 ∧
      SIZEOF_OFFSET ≤ (alignedPayload h alignment).2 ∧
      (alignedPayload h alignment).2 < alignment + SIZEOF_OFFSET := by
  have hpos := ha.pos
  have horig : heapHeaderPayloadAddress h = h + SIZEOF_HEADER :=
    wrap64_of_lt (by unfold SIZEOF_HEADER; omega)
  have hsize : SIZEOF_HEADER = 25 := rfl
  have hoff : SIZEOF_OFFSET = 2 := rfl
  rw [alignedPayload, horig]
  have ho : h + SIZEOF_HEADER + alignment + 2 ≤ 2 ^ 64 := by omega
  generalize h + SIZEOF_HEADER = o at *
  obtain ⟨hdvd, hle, hlt⟩ := alignUp_spec (x := o) ha h32 (by omega)
  generalize krtlAlignUpToPowerOfTwo o alignment = x at hdvd hle hlt ⊢
  dsimp only
  rw [sub64_of_le hle (by omega)]
  by_cases hsmall : x - o < SIZEOF_OFFSET
  · rw [if_pos hsmall, wrap64_of_lt (by omega)]
    obtain ⟨hdvd', hle', hlt'⟩ :=
      alignUp_spec (x := x + (SIZEOF_OFFSET - (x - o))) ha h32 (by omega)
    generalize krtlAlignUpToPowerOfTwo (x + (SIZEOF_OFFSET - (x - o))) alignment = y at *
    rw [sub64_of_le (by omega) (by omega)]
    exact ⟨hdvd', by omega, by omega, by omega⟩
  · rw [if_neg hsmall]
    exact ⟨hdvd, by omega, by omega, by omega⟩

theorem roundedSize_spec (ha : IsPowerOfTwo alignment) (h32 : alignment < 2 ^ 32)
    (hfit : max n HEAP_MIN_PAYLOAD_SIZE + (alignment - 1) < 2 ^ 64) :
    n ≤ roundedSize n alignment ∧ HEAP_MIN_PAYLOAD_SIZE ≤ roundedSize n alignment := by
  have hpos := ha.pos
  have hmax : (if n < HEAP_MIN_PAYLOAD_SIZE then HEAP_MIN_PAYLOAD_SIZE else n) =
      max n HEAP_MIN_PAYLOAD_SIZE := by
    split <;> omega
  rw [roundedSize, hmax]
  have hle := (alignUp_spec (x := max n HEAP_MIN_PAYLOAD_SIZE) ha h32 (by omega)).2.1
  omega

theorem request_accepted (ha : IsPowerOfTwo alignment) (h32 : alignment < 2 ^ 32) (hn : n ≠ 0) :
    ¬(n = 0 ∨ alignment = 0 ∨ alignment &&& sub32 alignment 1 ≠ 0) := by
  have hpos := ha.pos
  have hpow : alignment &&& sub32 alignment 1 = 0 := by
    obtain ⟨k, rfl⟩ := ha
    rw [sub32_of_le hpos h32, Nat.and_two_pow_sub_one_eq_mod, Nat.mod_self]
  omega

/-- The search finds the first block of the row that passes its test. -/
theorem heapLocate_spec {fuel b : Nat} (n alignment : Nat)
    (hl : Linked (fun h => (header m h).pPrev) (fun h => (header m h).pNext) b hs 0)
    (h0 : 0 ∉ hs) (hf : hs.length < fuel) :
    heapLocateAlignedFreeOfSizeFrom m n alignment fuel (hs.headD 0) =
      some ((hs.find? (passes m n alignment)).map fun h => (h, (alignedPayload h alignment).1)) := by
  induction fuel generalizing b hs with
  | zero => exact absurd hf (Nat.not_lt_zero _)
  | succ fuel ih =>
    cases hs with
    | nil => rw [List.headD_nil, heapLocateAlignedFreeOfSizeFrom, if_pos rfl, List.find?_nil]; rfl
    | cons h hs =>
      obtain ⟨_, hnext, hrest⟩ := hl
      have hh0 : h ≠ 0 := fun heq => h0 (heq ▸ List.mem_cons_self)
      have hnext' : pNext m h = hs.headD 0 := hnext
      rw [List.headD_cons, heapLocateAlignedFreeOfSizeFrom, if_neg hh0]
      cases hpass : passes m n alignment h with
      | true =>
        rw [if_pos rfl, List.find?_cons_of_pos hpass]
        rfl
      | false =>
        rw [if_neg Bool.false_ne_true, hnext',
          List.find?_cons_of_neg (by rw [hpass]; exact Bool.false_ne_true)]
        exact ih hrest (fun hmem => h0 (List.mem_cons_of_mem h hmem)) (Nat.lt_of_succ_lt_succ hf)

section answer
variable {a b p : Nat}

theorem heapLocate_found (hroot : s.rootHeader = hs.headD 0) (hC : Chain (header s.mem) a b hs)
    (hb : b < 2 ^ 64) (n alignment : Nat) :
    heapLocateAlignedFreeOfSizeFrom s.mem n alignment (2 ^ 64) s.rootHeader =
      some ((hs.find? (passes s.mem n alignment)).map
        fun h => (h, (alignedPayload h alignment).1)) := by
  have hlen : hs.length < 2 ^ 64 := by
    have := hC.tiles.length_le
    omega
  rw [hroot]
  exact heapLocate_spec n alignment hC.linked hC.zero_notMem hlen

theorem heapAlignedAcquire_none (hroot : s.rootHeader = hs.headD 0)
    (hC : Chain (header s.mem) a b hs) (hb : b < 2 ^ 64) (ha : IsPowerOfTwo alignment)
    (h32 : alignment < 2 ^ 32) (hn : n ≠ 0)
    (hfind : hs.find? (passes s.mem (roundedSize n alignment) alignment) = none) :
    heapAlignedAcquire s n alignment = some (0, s) := by
  rw [heapAlignedAcquire, if_neg (request_accepted ha h32 hn)]
  dsimp only
  rw [heapLocate_found hroot hC hb, hfind]
  rfl

theorem heapAlignedAcquire_some (hroot : s.rootHeader = hs.headD 0)
    (hC : Chain (header s.mem) a b hs) (hb : b < 2 ^ 64) (ha : IsPowerOfTwo alignment)
    (h32 : alignment < 2 ^ 32) (hn : n ≠ 0)
    (hfind : hs.find? (passes s.mem (roundedSize n alignment) alignment) = some h)
    (hp : (alignedPayload h alignment).1 = p) (hlo : h + SIZEOF_HEADER ≤ p)
    (hhi : p + roundedSize n alignment < 2 ^ 64) : heapAlignedAcquire s n alignment =
      some (p, { s with mem := grantedBytes s.mem h p (roundedSize n alignment) }) := by
  have hhead : SIZEOF_HEADER = 25 := rfl
  have hoff : SIZEOF_OFFSET = 2 := rfl
  have hdist : sub64 p h = p - h := sub64_of_le (by omega) (by omega)
  have hmax : ¬p - h > MAX_offset_to_meta := by
    unfold MAX_offset_to_meta
    omega
  rw [heapAlignedAcquire, if_neg (request_accepted ha h32 hn)]
  dsimp only
  rw [heapLocate_found hroot hC hb, hfind, Option.map_some, hp]
  dsimp only
  rw [hdist, if_neg hmax, wrap64_of_lt hhi, sub64_of_le (by omega) (by omega),
    sub64_of_le (by omega) hhi, grantedBytes]

end answer

structure Row (s : HeapState) (hs : List Nat) : Prop where
  root : s.rootHeader = hs.headD 0
  blocks : Blocks (header s.mem) HEAP_ST HEAP_ND hs
  start : s.vaddrHeapSt = HEAP_ST
  stop : s.vaddrHeapNd = HEAP_ND

/-- The extent lies in the payload of a taken block, and the two bytes below it hold its
distance from the header, as far as they can. -/
structure Housed (m : Bytes) (hs : List Nat) (x : Extent) (h : Nat) : Prop where
  mem : h ∈ hs
  taken : bFree m h = 0
  above : h + SIZEOF_HEADER + SIZEOF_OFFSET ≤ x.start
  below : x.stop ≤ blockEnd (header m) h
  nonempty : 0 < x.size
  offset : load m (x.start - SIZEOF_OFFSET) SIZEOF_OFFSET = (x.start - h) % 2 ^ 16

variable {x y : Extent} {a b p q : Nat}

theorem Clear.mono {a' b' : Nat} (hc : Clear h a b) (ha : a ≤ a') (hb : b' ≤ b) :
    Clear h a' b' :=
  hc.imp (fun h => h.trans ha) hb.trans

theorem Housed.clear (hB : Blocks (header m) a b hs) (hx : Housed m hs x k) :
    ∀ h ∈ hs, Clear h x.start x.stop := by
  have habove := hx.above
  exact fun h hh => (hB.chain.payload_clear hx.mem h hh).mono (by omega) hx.below

theorem Housed.apart (hB : Blocks (header m) a b hs) (hx : Housed m hs x h)
    (hy : Housed m hs y k) (hne : h ≠ k) : x.Apart y := by
  have hx1 := hx.above
  have hx2 := hx.below
  have hy1 := hy.above
  have hy2 := hy.below
  rcases hB.tiles.apart hx.mem hy.mem hne with hle | hle
  · exact Or.inl (by omega)
  · exact Or.inr (by omega)

theorem Housed.within (hB : Blocks (header m) a b hs) (hx : Housed m hs x h) :
    a ≤ x.start ∧ x.stop ≤ b := by
  have hin := hB.tiles.within hx.mem
  have habove := hx.above
  have hbelow := hx.below
  omega

theorem Housed.keep {hs' : List Nat} (hx : Housed m hs x k) (hk : k ∈ hs')
    (hu : Untouched m m' k) : Housed m' hs' x k := by
  have habove := hx.above
  have hbelow := hx.below
  have hpos := hx.nonempty
  unfold Extent.stop at hbelow
  refine ⟨hk, hu.free.trans hx.taken, habove, ?_, hpos, ?_⟩
  · rw [hu.blockEnd_eq]
    exact hx.below
  · rw [load_congr (hu.bytes.mono (by omega) (by omega))]
    exact hx.offset

theorem Blocks.same (hB : Blocks (header m) a b hs) (hsame : ∀ k ∈ hs, header m' k = header m k) :
    Blocks (header m') a b hs :=
  (hB.chain.same hsame).blocks fun k hk => by
    rw [hsame k hk]
    exact hB.large k hk

/-- Where the request is granted, if at all, rounding it did not wrap around and the block's
payload is no shorter than the alignment slack that is subtracted from it. -/
def AcquireSafe (m : Bytes) (hs : List Nat) (n alignment : Nat) : Prop :=
  ∀ h, n ≠ 0 → hs.find? (passes m (roundedSize n alignment) alignment) = some h →
    max n HEAP_MIN_PAYLOAD_SIZE + (alignment - 1) < 2 ^ 64 ∧
      (alignedPayload h alignment).2 ≤ payloadSize m h

/-- What a granted request leaves: the extent in the free block at `h`, the others in theirs. -/
structure Granted (s s' : HeapState) (hs hs' : List Nat) (alignment h : Nat) (x : Extent) :
    Prop where
  free : bFree s.mem h ≠ 0
  aligned : alignment ∣ x.start
  row : Row s' hs'
  housed : Housed s'.mem hs' x h
  kept : ∀ y k, k ≠ h → Housed s.mem hs y k → Housed s'.mem hs' y k

theorem granted_spec {slack size : Nat} (hrow : Row s hs) (hh : h ∈ hs) (hfree : bFree s.mem h ≠ 0)
    (hdvd : alignment ∣ p) (hp : p = h + SIZEOF_HEADER + slack) (hroom : SIZEOF_OFFSET ≤ slack)
    (hlarge : size + slack ≤ payloadSize s.mem h) (hmin : HEAP_MIN_PAYLOAD_SIZE ≤ size)
    (hn : 0 < n) (hle : n ≤ size) :
    ∃ hs', Granted s { s with mem := grantedBytes s.mem h p size } hs hs' alignment h ⟨p, n⟩ := by
  have hB := hrow.blocks
  have hE : blockEnd (header s.mem) h = h + SIZEOF_HEADER + payloadSize s.mem h := rfl
  have hND : HEAP_ND < 2 ^ 64 := by decide
  obtain ⟨l, r, rfl⟩ := List.append_of_mem hh
  obtain ⟨hs', hg⟩ := grantedBytes_spec p size hB.chain hND (by omega) (by omega)
  generalize grantedBytes s.mem h p size = m' at hg ⊢
  have hend := hg.below
  have hE' : blockEnd (header m') h = h + SIZEOF_HEADER + payloadSize m' h := rfl
  have hB' := hB.of_rest hg.chain hg.same (by omega) hg.rest
  refine ⟨hs', hfree, hdvd, ⟨hrow.root.trans (headD_of_rest hg.rest).symm, hB', hrow.start,
    hrow.stop⟩, ⟨mem_of_rest hg.rest hh, hg.taken, ?_, ?_, hn, hg.offset⟩, fun y k hne hy => ?_⟩
  · dsimp only
    omega
  · unfold Extent.stop
    dsimp only
    omega
  · exact hy.keep (mem_of_rest hg.rest hy.mem) (hg.same k (mem_of_ne hy.mem hne))

theorem heapAlignedAcquire_spec (hrow : Row s hs) (ha : IsPowerOfTwo alignment)
    (h32 : alignment < 2 ^ 32) (hsafe : AcquireSafe s.mem hs n alignment) :
    ∃ p s', heapAlignedAcquire s n alignment = some (p, s') ∧
      (p = 0 ∧ s' = s ∨ p ≠ 0 ∧ ∃ h hs', Granted s s' hs hs' alignment h ⟨p, n⟩) := by
  have hB := hrow.blocks
  have hlt : HEAP_ND < 2 ^ 64 := by decide
  by_cases hn : n = 0
  · exact ⟨0, s, by rw [heapAlignedAcquire, if_pos (Or.inl hn)], Or.inl ⟨rfl, rfl⟩⟩
  cases hfind : hs.find? (passes s.mem (roundedSize n alignment) alignment) with
  | none =>
    exact ⟨0, s, heapAlignedAcquire_none hrow.root hB.chain hlt ha h32 hn hfind,
      Or.inl ⟨rfl, rfl⟩⟩
  | some h =>
    obtain ⟨hfit, hslack⟩ := hsafe h hn hfind
    obtain ⟨hle, hmin⟩ := roundedSize_spec ha h32 hfit
    have hh : h ∈ hs := List.mem_of_find?_eq_some hfind
    have hpass := List.find?_some hfind
    have hin := hB.tiles.within hh
    have hgt := blockEnd_gt (header s.mem) h
    have hE : blockEnd (header s.mem) h = h + SIZEOF_HEADER + payloadSize s.mem h := rfl
    have hND : HEAP_ND = 0xFFFFFFC000000000 := rfl
    have hhead : SIZEOF_HEADER = 25 := rfl
    have hoff : SIZEOF_OFFSET = 2 := rfl
    obtain ⟨hdvd, hp, hroom, -⟩ := alignedPayload_spec ha h32 (h := h) (by omega)
    rw [passes, Bool.and_eq_true, decide_eq_true_eq, decide_eq_true_eq,
      sub64_of_le hslack (by omega)] at hpass
    obtain ⟨hs', hgranted⟩ := granted_spec hrow hh hpass.1 hdvd hp hroom (by omega) hmin
      (Nat.pos_of_ne_zero hn) hle
    have hcall := heapAlignedAcquire_some hrow.root hB.chain hlt ha h32 hn hfind rfl (by omega)
      (by omega)
    exact ⟨_, _, hcall, Or.inr ⟨by omega, h, hs', hgranted⟩⟩

/-- What giving back the block at `h` leaves, before and after each merge: a row with the same
first block, and everything else housed as it was. -/
structure Freeing (m : Bytes) (hs : List Nat) (h : Nat) (m' : Bytes) (hs' : List Nat) : Prop where
  blocks : Blocks (header m') HEAP_ST HEAP_ND hs'
  head : hs'.headD 0 = hs.headD 0
  kept : ∀ y k, k ≠ h → Housed m hs y k → Housed m' hs' y k

theorem Blocks.merged {l' r' : List Nat} (hB : Blocks (header m) a b hs)
    (hM : Merged m m' a b p l' r') (hsub : l' ++ p :: r' ⊆ hs) :
    Blocks (header m') a b (l' ++ p :: r') := by
  have hgrown : (header m p).payloadSize ≤ (header m' p).payloadSize := hM.grown
  refine hM.chain.blocks fun k hk => ?_
  have hlarge := hB.large k (hsub hk)
  by_cases heq : k = p
  · rw [heq] at hlarge ⊢
    exact le_trans hlarge hgrown
  · rw [(hM.same k (mem_of_ne hk heq)).size]
    exact hlarge

theorem heapRelinquish_spec {ok : Bool} (hrow : Row s hs) (hx : Housed s.mem hs x h)
    (hnear : x.start - h < 2 ^ 16) (hcall : heapRelinquish s x.start = some (ok, s')) :
    ∃ hs', Row s' hs' ∧ ∀ y k, k ≠ h → Housed s.mem hs y k → Housed s'.mem hs' y k := by
  have hB := hrow.blocks
  have hin := hB.tiles.within hx.mem
  have habove := hx.above
  have hbelow := hx.below
  have hpos := hx.nonempty
  have hND : HEAP_ND < 2 ^ 64 := by decide
  unfold Extent.stop at hbelow
  have hoffset : headerOf s.mem x.start = h := by
    unfold headerOf
    have hslot : sub64 x.start SIZEOF_OFFSET = x.start - SIZEOF_OFFSET :=
      sub64_of_le (by omega) (by omega)
    rw [hslot, hx.offset, Nat.mod_eq_of_lt hnear, sub64_of_le (by omega) (by omega)]
    omega
  have hlo : s.vaddrHeapSt ≤ x.start := by
    rw [hrow.start]
    omega
  have hhi : x.start < s.vaddrHeapNd := by
    rw [hrow.stop]
    omega
  suffices hres : ∃ m' hs', s' = { s with mem := m' } ∧ Freeing s.mem hs h m' hs' by
    obtain ⟨m', hs', rfl, hf⟩ := hres
    exact ⟨hs', ⟨hrow.root.trans hf.head.symm, hf.blocks, hrow.start, hrow.stop⟩, hf.kept⟩
  obtain ⟨l, r, rfl⟩ := List.append_of_mem hx.mem
  rcases heapRelinquish_merges hB.chain hND hlo hhi hoffset hx.taken with
    ⟨-, hnone⟩ | ⟨-, l', p, r', m', hsome, hmerges, hM⟩
  · rw [hnone] at hcall
    exact absurd hcall (by simp)
  · rw [hsome, Option.some.injEq, Prod.mk.injEq] at hcall
    refine ⟨m', l' ++ p :: r', hcall.2.symm, hB.merged hM hmerges.subset, hmerges.headD_eq, ?_⟩
    intro y k hne hy
    have hk : k ∈ l ++ r := mem_of_ne hy.mem hne
    have hk' := hmerges.mem hk (not_isFree_iff.mpr hy.taken)
    exact hy.keep (mem_of_mem_append hk') (hM.same k hk')

end Ych.Krnlheap
