import Mathlib.Data.Nat.Bitwise
import Mathlib.Tactic.Linarith
import Mathlib.Tactic.Ring

/-! Unsigned machine words as natural numbers with explicit wraparound, and the
power-of-two rounding that kernels compute with masks. -/
namespace Ych.Words

def wrap32 (n : Nat) : Nat := n % 2 ^ 32
def wrap64 (n : Nat) : Nat := n % 2 ^ 64
def sub32 (a b : Nat) : Nat := (a + 2 ^ 32 - b) % 2 ^ 32
def sub64 (a b : Nat) : Nat := (a + 2 ^ 64 - b) % 2 ^ 64
def not64 (a : Nat) : Nat := 2 ^ 64 - 1 - a

/-- The conversion of an `int` to a 64-bit unsigned type. -/
def toSize (x : Int) : Nat := (x % 2 ^ 64).toNat

/-- A C condition `flags & mask`. -/
def hasFlag (flags mask : Nat) : Bool := flags &&& mask != 0

theorem hasFlag_or {flags m k : Nat} :
    hasFlag flags (m ||| k) = (hasFlag flags m || hasFlag flags k) := by
  rw [Bool.eq_iff_iff]
  simp only [hasFlag, Nat.and_or_distrib_left, bne_iff_ne, Bool.or_eq_true, ne_eq,
    Nat.or_eq_zero_iff, not_and_or]

theorem wrap32_of_lt {n : Nat} (h : n < 2 ^ 32) : wrap32 n = n := Nat.mod_eq_of_lt h

theorem wrap64_of_lt {n : Nat} (h : n < 2 ^ 64) : wrap64 n = n := Nat.mod_eq_of_lt h

theorem wrap32_lt (n : Nat) : wrap32 n < 2 ^ 32 := Nat.mod_lt _ (by decide)

theorem wrap64_lt (n : Nat) : wrap64 n < 2 ^ 64 := Nat.mod_lt _ (by decide)

theorem sub32_of_le {a b : Nat} (h : b ≤ a) (ha : a < 2 ^ 32) : sub32 a b = a - b := by
  unfold sub32
  omega

theorem sub64_of_le {a b : Nat} (h : b ≤ a) (ha : a < 2 ^ 64) : sub64 a b = a - b := by
  unfold sub64
  omega

theorem sub64_wrap64_add (p : Nat) {m : Nat} (hm : 0 < m) :
    sub64 (wrap64 (p + m)) 1 = wrap64 (p + (m - 1)) := by
  unfold sub64 wrap64
  omega

theorem toSize_natCast {n : Nat} (h : n < 2 ^ 64) : toSize n = n := by
  unfold toSize
  omega

theorem toSize_neg {n : Nat} (hpos : 0 < n) (h : n < 2 ^ 64) : toSize (-n) = 2 ^ 64 - n := by
  unfold toSize
  omega

theorem and_not64_mask {x k : Nat} (hx : x < 2 ^ 64) (hk : k ≤ 64) :
    x &&& not64 (2 ^ k - 1) = x / 2 ^ k * 2 ^ k := by
  have hmask : not64 (2 ^ k - 1) = 2 ^ 64 - (2 ^ k - 1 + 1) := by
    unfold not64
    omega
  have hlt : 2 ^ k - 1 < 2 ^ 64 := by
    have := Nat.pow_le_pow_right (n := 2) (by decide) hk
    have := Nat.two_pow_pos k
    omega
  apply Nat.eq_of_testBit_eq
  intro i
  rw [Nat.testBit_and, hmask, Nat.testBit_two_pow_sub_succ hlt, Nat.testBit_two_pow_sub_one,
    Nat.testBit_mul_two_pow, Nat.testBit_div_two_pow]
  by_cases hik : k ≤ i
  · by_cases hi : i < 64
    · simp [hik, hi]
    · have hx' : x.testBit i = false :=
        Nat.testBit_lt_two_pow (hx.trans_le (Nat.pow_le_pow_right (by decide) (by omega)))
      simp [hik, hi, hx']
  · simp [hik, Nat.lt_of_not_le hik]

def IsPowerOfTwo (p : Nat) : Prop := ∃ k, p = 2 ^ k

theorem IsPowerOfTwo.pos {p : Nat} (h : IsPowerOfTwo p) : 0 < p := by
  obtain ⟨k, rfl⟩ := h
  exact Nat.two_pow_pos k

end Ych.Words
