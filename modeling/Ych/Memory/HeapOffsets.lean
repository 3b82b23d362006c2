import Ych.Memory.HeapRequests

/-! The back-offset of an aligned request: the header it leads back to, for every alignment. The
range check in front of it compares with the greatest 64-bit value and refuses nothing. -/
namespace Ych.Krnlheap
open Words Bitmap ByteMemory Krnlmem

variable {s s' : HeapState} {m m' : Bytes} {hs : List Nat} {a b h n p x alignment : Nat}

/-- The first multiple of the alignment in a block's payload with room for the back-offset. -/
def firstAligned (h alignment : Nat) : Nat :=
  (h + SIZEOF_HEADER + SIZEOF_OFFSET + (alignment - 1)) / alignment * alignment

structure ServedFrom (s : HeapState) (n alignment h p : Nat) : Prop where
  found : heapLocateAlignedFreeOfSizeFrom s.mem (roundedSize n alignment) alignment (2 ^ 64)
    s.rootHeader = some (some (h, p))
  above : h + SIZEOF_HEADER ≤ p
  below : p + n ≤ blockEnd (header s.mem) h

/-- The pointer leads `HeapRelinquish` back to the block it was served from. -/
def HeaderKept (s : HeapState) (n alignment : Nat) : Prop :=
  ∀ p s' h, p ≠ 0 → heapAlignedAcquire s n alignment = some (p, s') →
    ServedFrom s n alignment h p → headerOf s'.mem p = h

theorem multiple_add_le (ha : IsPowerOfTwo alignment) (h32 : alignment < 2 ^ 32)
    (hdvd : alignment ∣ x) (hx : x < 2 ^ 64) : x + alignment ≤ 2 ^ 64 := by
  obtain ⟨k, rfl⟩ := ha
  have hk : k < 32 := (Nat.pow_lt_pow_iff_right (by decide)).mp h32
  have hdvd' : 2 ^ k ∣ 2 ^ 64 - x := Nat.dvd_sub (Nat.pow_dvd_pow 2 (by omega)) hdvd
  have hle := Nat.le_of_dvd (by omega) hdvd'
  omega

/-- Rounding up wraps around to nothing or not at all. -/
theorem alignUp_wrapped (ha : IsPowerOfTwo alignment) (h32 : alignment < 2 ^ 32)
    (hx : x < 2 ^ 64) : krtlAlignUpToPowerOfTwo x alignment = 0 ∨
      x ≤ krtlAlignUpToPowerOfTwo x alignment ∧
        krtlAlignUpToPowerOfTwo x alignment + alignment ≤ 2 ^ 64 ∧
        krtlAlignUpToPowerOfTwo x alignment < x + alignment := by
  have hpos := ha.pos
  by_cases hfit : x + (alignment - 1) < 2 ^ 64
  · obtain ⟨hdvd, hle, hlt⟩ := alignUp_spec (x := x) ha h32 (by omega)
    have hsmall : krtlAlignUpToPowerOfTwo x alignment < 2 ^ 64 := by omega
    exact Or.inr ⟨hle, multiple_add_le ha h32 hdvd hsmall, hlt⟩
  · refine Or.inl ?_
    have hwrap : wrap64 (x + (alignment - 1)) < alignment := by
      unfold wrap64
      omega
    rw [krtlAlignUpToPowerOfTwo_eq ha h32, Nat.div_eq_of_lt hwrap, Nat.zero_mul]

theorem roomy_of_above (ha : IsPowerOfTwo alignment) (h32 : alignment < 2 ^ 32)
    (hh : h + SIZEOF_HEADER < 2 ^ 64)
    (habove : h + SIZEOF_HEADER ≤ (alignedPayload h alignment).1) :
    h + alignment + 27 ≤ 2 ^ 64 := by
  have hhead : SIZEOF_HEADER = 25 := rfl
  have hoff : SIZEOF_OFFSET = 2 := rfl
  have horig : heapHeaderPayloadAddress h = h + SIZEOF_HEADER := wrap64_of_lt hh
  rw [alignedPayload, horig] at habove
  have hx := alignUp_wrapped (x := h + SIZEOF_HEADER) ha h32 hh
  generalize krtlAlignUpToPowerOfTwo (h + SIZEOF_HEADER) alignment = x at habove hx
  dsimp only at habove
  by_cases hsmall : sub64 x (h + SIZEOF_HEADER) < SIZEOF_OFFSET
  · rw [if_pos hsmall] at habove
    have hslot : wrap64 (x + (SIZEOF_OFFSET - sub64 x (h + SIZEOF_HEADER))) =
        wrap64 (h + SIZEOF_HEADER + SIZEOF_OFFSET) := by
      unfold sub64 at hsmall ⊢
      unfold wrap64
      omega
    rw [hslot] at habove
    have hy := alignUp_wrapped (x := wrap64 (h + SIZEOF_HEADER + SIZEOF_OFFSET)) ha h32
      (wrap64_lt _)
    unfold wrap64 at hy habove
    omega
  · rw [if_neg hsmall] at habove
    dsimp only at habove
    unfold sub64 at hsmall
    omega

theorem alignedPayload_eq (ha : IsPowerOfTwo alignment) (h32 : alignment < 2 ^ 32)
    (hroom : h + alignment + 27 ≤ 2 ^ 64) : alignedPayload h alignment =
      (firstAligned h alignment, firstAligned h alignment - (h + SIZEOF_HEADER)) := by
  have hpos := ha.pos
  have hspec := alignedPayload_spec ha h32 hroom
  generalize alignedPayload h alignment = r at hspec ⊢
  obtain ⟨p, d⟩ := r
  obtain ⟨⟨c, hdvd⟩, hp, hlo, hhi⟩ := hspec
  dsimp only at hdvd hp hlo hhi
  have hfirst : firstAligned h alignment = p := by
    have hdiv : (h + SIZEOF_HEADER + SIZEOF_OFFSET + (alignment - 1)) / alignment = c := by
      refine Nat.div_eq_of_lt_le ?_ ?_
      · rw [Nat.mul_comm]
        omega
      · rw [Nat.add_mul, Nat.one_mul, Nat.mul_comm]
        omega
    rw [firstAligned, hdiv, hdvd, Nat.mul_comm]
  rw [hfirst, Prod.mk.injEq]
  exact ⟨rfl, by omega⟩

theorem firstAligned_spec (ha : IsPowerOfTwo alignment) (h : Nat) :
    alignment ∣ firstAligned h alignment ∧
      h + SIZEOF_HEADER + SIZEOF_OFFSET ≤ firstAligned h alignment := by
  have hpos := ha.pos
  have hdiv := Nat.div_add_mod (h + SIZEOF_HEADER + SIZEOF_OFFSET + (alignment - 1)) alignment
  have hmod := Nat.mod_lt (h + SIZEOF_HEADER + SIZEOF_OFFSET + (alignment - 1)) hpos
  rw [Nat.mul_comm] at hdiv
  refine ⟨Nat.dvd_mul_left _ _, ?_⟩
  unfold firstAligned
  omega

theorem heapAlignedAcquire_offset (hroot : s.rootHeader = hs.headD 0)
    (hC : Chain (header s.mem) a b hs) (hb : b < 2 ^ 64) (ha : IsPowerOfTwo alignment)
    (h32 : alignment < 2 ^ 32) (hn : n ≠ 0)
    (hfind : hs.find? (passes s.mem (roundedSize n alignment) alignment) = some h)
    (hroom : firstAligned h alignment + n ≤ blockEnd (header s.mem) h) :
    ∃ s', heapAlignedAcquire s n alignment = some (firstAligned h alignment, s') ∧
      headerOf s'.mem (firstAligned h alignment) =
        sub64 (firstAligned h alignment) ((firstAligned h alignment - h) % 2 ^ 16) := by
  have hh : h ∈ hs := List.mem_of_find?_eq_some hfind
  have hin := hC.tiles.within hh
  have hE : blockEnd (header s.mem) h = h + SIZEOF_HEADER + payloadSize s.mem h := rfl
  have hhead : SIZEOF_HEADER = 25 := rfl
  have hoff : SIZEOF_OFFSET = 2 := rfl
  have hmin : HEAP_MIN_PAYLOAD_SIZE = 32 := rfl
  obtain ⟨hdvd, hlo⟩ := firstAligned_spec ha h
  have hfit := multiple_add_le ha h32 hdvd (by omega)
  have hpayload := alignedPayload_eq ha h32 (h := h) (by omega)
  have hle := Nat.le_of_dvd (by omega) hdvd
  obtain ⟨hsize, hsmall⟩ := roundedSize_spec (n := n) ha h32 (by omega)
  have hpass := List.find?_some hfind
  rw [passes, hpayload, Bool.and_eq_true, decide_eq_true_eq, decide_eq_true_eq,
    sub64_of_le (by omega) (by omega)] at hpass
  have hslot : sub64 (firstAligned h alignment) SIZEOF_OFFSET =
      firstAligned h alignment - SIZEOF_OFFSET := sub64_of_le (by omega) (by omega)
  refine ⟨_, heapAlignedAcquire_some hroot hC hb ha h32 hn hfind
    (congrArg Prod.fst hpayload) (by omega) (by omega), ?_⟩
  obtain ⟨l, r, rfl⟩ := List.append_of_mem hh
  obtain ⟨hs', hg⟩ := grantedBytes_spec (firstAligned h alignment) (roundedSize n alignment)
    hC hb (by omega) (by omega)
  rw [headerOf, hslot, hg.offset]

/-- The pointer leads back to its block exactly if the distance of the block's first aligned
address fits 16 bits, for the block that is found, where the request fits there. -/
theorem headerKept_iff (hroot : s.rootHeader = hs.headD 0)
    (hC : Chain (header s.mem) a b hs) (hb : b < 2 ^ 64) (ha : IsPowerOfTwo alignment)
    (h31 : alignment ≤ 2 ^ 31) : HeaderKept s n alignment ↔
      ∀ h, n ≠ 0 → hs.find? (passes s.mem (roundedSize n alignment) alignment) = some h →
        firstAligned h alignment + n ≤ blockEnd (header s.mem) h →
        firstAligned h alignment - h < 2 ^ 16 := by
  have h32 : alignment < 2 ^ 32 := by omega
  have hloc := heapLocate_found hroot hC hb (roundedSize n alignment) alignment
  constructor
  · intro hkept h hn hfind hroom
    have hin := hC.tiles.within (List.mem_of_find?_eq_some hfind)
    obtain ⟨hdvd, hlo⟩ := firstAligned_spec ha h
    have hfit := multiple_add_le ha h32 hdvd (by omega)
    have hoff : SIZEOF_OFFSET = 2 := rfl
    have hhead : SIZEOF_HEADER = 25 := rfl
    obtain ⟨s', hcall, hoffset⟩ := heapAlignedAcquire_offset hroot hC hb ha h32 hn hfind hroom
    rw [hfind, Option.map_some, alignedPayload_eq ha h32 (by omega)] at hloc
    have hhome := hkept _ s' h (by omega) hcall ⟨hloc, by omega, hroom⟩
    rw [hoffset] at hhome
    unfold sub64 at hhome
    omega
  · intro hnear p s' h hp hcall hserved
    have hn : n ≠ 0 := by
      intro hzero
      rw [heapAlignedAcquire, if_pos (Or.inl hzero), Option.some.injEq, Prod.mk.injEq] at hcall
      exact hp hcall.1.symm
    rw [hserved.found, eq_comm, Option.some.injEq, Option.map_eq_some_iff] at hloc
    obtain ⟨k, hfind, hk⟩ := hloc
    rw [Prod.mk.injEq] at hk
    obtain ⟨rfl, hpayload⟩ := hk
    have hin := hC.tiles.within (List.mem_of_find?_eq_some hfind)
    have hgt := blockEnd_gt (header s.mem) k
    have habove := hserved.above
    have hroom := hserved.below
    rw [← hpayload] at habove
    rw [alignedPayload_eq ha h32 (roomy_of_above ha h32 (by omega) habove)] at hpayload
    obtain rfl : firstAligned k alignment = p := hpayload
    obtain ⟨z, hcall', hoffset⟩ := heapAlignedAcquire_offset hroot hC hb ha h32 hn hfind hroom
    rw [hcall, Option.some.injEq, Prod.mk.injEq] at hcall'
    have hsmall := hnear k hn hfind hroom
    have hlo := (firstAligned_spec ha k).2
    rw [hcall'.2, hoffset, Nat.mod_eq_of_lt hsmall, sub64_of_le (by omega) (by omega)]
    omega

theorem headerKept_iff_boot : ∃ v' s', heapInit bootVmm bootHeap = some (true, v', s') ∧
    HeaderKept s' 100 4096 := by
  obtain ⟨v', hinit⟩ := heapInit_boot
  have hrow := heapInit_row hinit
  refine ⟨v', bootedHeap, hinit, (headerKept_iff hrow.root hrow.blocks.chain (by decide) ⟨12, rfl⟩
    (by decide)).mpr fun h _ hfind _ => ?_⟩
  rw [List.mem_singleton.mp (List.mem_of_find?_eq_some hfind)]
  decide

/-- 100 bytes at a multiple of 128 KiB: the distance is 128 KiB, of which 0 is stored. -/
theorem distant_header_lost : ∃ v' s', heapInit bootVmm bootHeap = some (true, v', s') ∧
    bFree s'.mem HEAP_ST ≠ 0 ∧ ¬HeaderKept s' 100 (2 ^ 17) := by
  obtain ⟨v', hinit⟩ := heapInit_boot
  have hfound : heapLocateAlignedFreeOfSizeFrom bootedHeap.mem (roundedSize 100 (2 ^ 17)) (2 ^ 17)
      (2 ^ 64) bootedHeap.rootHeader = some (some (HEAP_ST, HEAP_ST + 2 ^ 17)) := by
    decide +kernel
  have hcalled : (heapAlignedAcquire bootedHeap 100 (2 ^ 17)).map (fun q =>
      (q.1, headerOf q.2.mem q.1)) = some (HEAP_ST + 2 ^ 17, HEAP_ST + 2 ^ 17) := by
    decide +kernel
  obtain ⟨⟨p, z⟩, hcall, hres⟩ := Option.map_eq_some_iff.mp hcalled
  obtain ⟨rfl, hhome⟩ := Prod.mk.inj hres
  have hend : blockEnd (header bootedHeap.mem) HEAP_ST = HEAP_ND := (heapInit_row hinit).blocks.tiles.2
  have hfree : bFree bootedHeap.mem HEAP_ST ≠ 0 := by
    rw [bFree_eq, heapInit_header hinit]
    decide
  refine ⟨v', bootedHeap, hinit, hfree, fun hkept => ?_⟩
  have hlost := hkept _ z HEAP_ST (by decide) hcall ⟨hfound, by decide, by rw [hend]; decide⟩
  dsimp only at hhome
  rw [hhome] at hlost
  exact absurd hlost (by decide)

end Ych.Krnlheap
