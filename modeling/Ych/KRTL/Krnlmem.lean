import Ych.Base.Bitmap
import Ych.Base.Words

/-! Helpers of the kernel runtime library: the comparison of two buffers, and alignment with
masks over 64-bit addresses and a 32-bit power of two. -/
namespace Ych.Krnlmem
open Words Bitmap

/-! ### Comparing buffers

A pointer is the bytes from it on. -/

/-- The offsets that the loop reads from `i` on, and what it leaves in `N`. The counter is tested
and taken down behind the comparison, and only if that finds the bytes equal. -/
def bufferEqualLoop (leftBytes rightBytes : Bytes) (i : Nat) : Nat → List Nat × Nat
  | 0 => if leftBytes i = rightBytes i then ([i], 2 ^ 64 - 1) else ([i], 0)
  | n + 1 =>
    if leftBytes i = rightBytes i then
      let (reads, n) := bufferEqualLoop leftBytes rightBytes (i + 1) n
      (i :: reads, n)
    else ([i], n + 1)

def krtlBufferEqual (lhs rhs : Bytes) (n : Nat) : Bool := (bufferEqualLoop lhs rhs 0 n).2 == 0

def krtlBufferReads (lhs rhs : Bytes) (n : Nat) : List Nat := (bufferEqualLoop lhs rhs 0 n).1

def SameBytes (lhs rhs : Bytes) (n : Nat) : Prop := ∀ i < n, lhs i = rhs i

instance (lhs rhs : Bytes) (n : Nat) : Decidable (SameBytes lhs rhs n) :=
  inferInstanceAs (Decidable (∀ i < n, lhs i = rhs i))

section
variable {lhs rhs : Bytes} {n : Nat}

/-- Equal bytes are read to the one behind them, which decides what is left. -/
theorem bufferEqualLoop_same {i : Nat} (h : ∀ j < n, lhs (i + j) = rhs (i + j)) :
    bufferEqualLoop lhs rhs i n =
      (List.range' i (n + 1), if lhs (i + n) = rhs (i + n) then 2 ^ 64 - 1 else 0) := by
  induction n generalizing i with
  | zero =>
    by_cases hlast : lhs i = rhs i <;> simp [bufferEqualLoop, hlast]
  | succ n ih =>
    have hfirst : lhs i = rhs i := h 0 (Nat.succ_pos n)
    have hrest : ∀ j < n, lhs (i + 1 + j) = rhs (i + 1 + j) := by
      intro j hj
      rw [Nat.add_assoc, Nat.add_comm 1 j]
      exact h (j + 1) (Nat.succ_lt_succ hj)
    have hlast : i + 1 + n = i + (n + 1) := by omega
    rw [bufferEqualLoop, if_pos hfirst, ih hrest, hlast]
    rfl

theorem bufferEqualLoop_differ {i : Nat} (h : ∃ j < n, lhs (i + j) ≠ rhs (i + j)) :
    (bufferEqualLoop lhs rhs i n).2 ≠ 0 ∧
      ∀ j ∈ (bufferEqualLoop lhs rhs i n).1, j < i + n := by
  induction n generalizing i with
  | zero =>
    obtain ⟨j, hj, -⟩ := h
    exact absurd hj (Nat.not_lt_zero j)
  | succ n ih =>
    rw [bufferEqualLoop]
    by_cases hfirst : lhs i = rhs i
    · have hrest : ∃ j < n, lhs (i + 1 + j) ≠ rhs (i + 1 + j) := by
        obtain ⟨j, hj, hne⟩ := h
        cases j with
        | zero => exact absurd hfirst hne
        | succ j => exact ⟨j, by omega, by rwa [show i + 1 + j = i + (j + 1) by omega]⟩
      obtain ⟨hleft, hreads⟩ := ih hrest
      rw [if_pos hfirst]
      refine ⟨hleft, fun j hj => ?_⟩
      cases List.mem_cons.mp hj with
      | inl heq => omega
      | inr hj =>
        have := hreads j hj
        omega
    · rw [if_neg hfirst]
      refine ⟨Nat.succ_ne_zero n, fun j hj => ?_⟩
      have := List.mem_singleton.mp hj
      omega

theorem bufferEqualLoop_of_same (h : SameBytes lhs rhs n) :
    bufferEqualLoop lhs rhs 0 n =
      (List.range' 0 (n + 1), if lhs n = rhs n then 2 ^ 64 - 1 else 0) := by
  have hloop : ∀ j < n, lhs (0 + j) = rhs (0 + j) := fun j hj => by
    rw [Nat.zero_add]
    exact h j hj
  rw [bufferEqualLoop_same hloop, Nat.zero_add]

theorem bufferEqualLoop_of_differ (h : ¬SameBytes lhs rhs n) :
    (bufferEqualLoop lhs rhs 0 n).2 ≠ 0 ∧ ∀ j ∈ (bufferEqualLoop lhs rhs 0 n).1, j < n := by
  have hdiffer : ∃ j < n, lhs (0 + j) ≠ rhs (0 + j) := by
    simpa [SameBytes] using h
  obtain ⟨hleft, hreads⟩ := bufferEqualLoop_differ hdiffer
  rw [Nat.zero_add] at hreads
  exact ⟨hleft, hreads⟩

theorem krtlBufferEqual_iff :
    krtlBufferEqual lhs rhs n = true ↔ SameBytes lhs rhs n ∧ lhs n ≠ rhs n := by
  rw [krtlBufferEqual]
  by_cases hsame : SameBytes lhs rhs n
  · rw [bufferEqualLoop_of_same hsame, and_iff_right hsame]
    by_cases hlast : lhs n = rhs n <;> simp [hlast]
  · rw [beq_iff_eq]
    exact iff_of_false (bufferEqualLoop_of_differ hsame).1 fun h => hsame h.1

structure BufferEqualKept (lhs rhs : Bytes) (n : Nat) : Prop where
  reads : ∀ i ∈ krtlBufferReads lhs rhs n, i < n
  equal : krtlBufferEqual lhs rhs n = true ↔ SameBytes lhs rhs n

/-- It keeps to that where the buffers differ. Behind equal ones it reads one byte more. -/
theorem bufferEqualKept_iff (lhs rhs : Bytes) (n : Nat) :
    BufferEqualKept lhs rhs n ↔ ¬SameBytes lhs rhs n := by
  constructor
  · intro hkept hsame
    have hread : n ∈ krtlBufferReads lhs rhs n := by
      rw [krtlBufferReads, bufferEqualLoop_of_same hsame]
      exact List.mem_range'_1.mpr ⟨Nat.zero_le n, by omega⟩
    exact absurd (hkept.reads n hread) (Nat.lt_irrefl n)
  · intro hdiffer
    refine ⟨(bufferEqualLoop_of_differ hdiffer).2, iff_of_false ?_ hdiffer⟩
    rw [krtlBufferEqual_iff]
    exact fun h => hdiffer h.1

/-- All 32 bytes of acknowledgements are as expected, and the byte behind them is the same too. -/
theorem equal_buffers_differ : ¬∀ (lhs rhs : Bytes) (n : Nat), BufferEqualKept lhs rhs n := by
  intro hall
  have hkept := hall (fun _ => 0) (fun _ => 0) 32
  have hsame : SameBytes (fun _ => 0) (fun _ => 0) 32 := fun _ _ => rfl
  exact absurd (hkept.equal.mpr hsame) (by decide)

end

/-! ### Alignment -/

def krtlIsPowerOfTwoAligned (address powerOfTwoAlignment : Nat) : Bool :=
  address &&& sub32 powerOfTwoAlignment 1 == 0

def krtlAlignUpToPowerOfTwo (address powerOfTwoAlignment : Nat) : Nat :=
  wrap64 (address + sub32 powerOfTwoAlignment 1) &&& not64 (sub64 powerOfTwoAlignment 1)

variable {address alignment : Nat}

theorem krtlIsPowerOfTwoAligned_iff (ha : IsPowerOfTwo alignment) (h32 : alignment < 2 ^ 32) :
    krtlIsPowerOfTwoAligned address alignment = true ↔ alignment ∣ address := by
  have hpos := ha.pos
  obtain ⟨k, rfl⟩ := ha
  rw [krtlIsPowerOfTwoAligned, sub32_of_le hpos h32, Nat.and_two_pow_sub_one_eq_mod, beq_iff_eq,
    Nat.dvd_iff_mod_eq_zero]

theorem krtlAlignUpToPowerOfTwo_eq (ha : IsPowerOfTwo alignment) (h32 : alignment < 2 ^ 32) :
    krtlAlignUpToPowerOfTwo address alignment =
      wrap64 (address + (alignment - 1)) / alignment * alignment := by
  have hpos := ha.pos
  obtain ⟨k, rfl⟩ := ha
  have hk : k ≤ 64 := by
    have : k < 32 := (Nat.pow_lt_pow_iff_right (by decide)).mp h32
    omega
  rw [krtlAlignUpToPowerOfTwo, sub32_of_le hpos h32,
    sub64_of_le hpos (h32.trans (by decide)), and_not64_mask (wrap64_lt _) hk]

end Ych.Krnlmem
