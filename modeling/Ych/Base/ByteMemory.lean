import Mathlib.Data.Nat.Basic
import Ych.Base.Bitmap

/-! Byte-addressed memory with little-endian loads and stores of any width: what a store
changes, and what a load depends on. -/
namespace Ych.ByteMemory
open Bitmap

def load (m : Bytes) (a : Nat) : Nat → Nat
  | 0 => 0
  | n + 1 => (m a).toNat + 256 * load m (a + 1) n

def store (m : Bytes) (a n v : Nat) : Bytes := fun i =>
  if a ≤ i ∧ i < a + n then BitVec.ofNat 8 (v / 256 ^ (i - a)) else m i

variable {m m' : Bytes} {a b n k v : Nat}

/-- The memories hold the same bytes from `a` up to `b`. -/
def SameOn (m m' : Bytes) (a b : Nat) : Prop := ∀ i, a ≤ i → i < b → m' i = m i

theorem SameOn.trans {m'' : Bytes} (h : SameOn m m' a b) (h' : SameOn m' m'' a b) :
    SameOn m m'' a b :=
  fun i h1 h2 => (h' i h1 h2).trans (h i h1 h2)

theorem SameOn.mono {c d : Nat} (h : SameOn m m' a b) (hc : a ≤ c) (hd : d ≤ b) :
    SameOn m m' c d :=
  fun i h1 h2 => h i (hc.trans h1) (h2.trans_le hd)

theorem load_congr (h : SameOn m m' a (a + n)) : load m' a n = load m a n := by
  induction n generalizing a with
  | zero => rfl
  | succ n ih =>
    rw [load, load, h a le_rfl (by omega), ih (h.mono (by omega) (by omega))]

theorem load_lt (m : Bytes) (a n : Nat) : load m a n < 256 ^ n := by
  induction n generalizing a with
  | zero => exact Nat.one_pos
  | succ n ih =>
    have hbyte := (m a).isLt
    have hrest := ih (a + 1)
    rw [load, Nat.pow_succ]
    omega

theorem sameOn_store (h : b ≤ a ∨ a + n ≤ k) : SameOn m (store m a n v) k b := by
  intro i h1 h2
  rw [store, if_neg (by omega)]

theorem load_store (m : Bytes) (a n v : Nat) : load (store m a n v) a n = v % 256 ^ n := by
  induction n generalizing a v m with
  | zero => rw [load, Nat.pow_zero, Nat.mod_one]
  | succ n ih =>
    have hrest : load (store m a (n + 1) v) (a + 1) n =
        load (store m (a + 1) n (v / 256)) (a + 1) n := by
      refine load_congr fun i h1 h2 => ?_
      rw [store, store, if_pos (by omega), if_pos ⟨h1, h2⟩, Nat.div_div_eq_div_mul,
        ← Nat.pow_succ', Nat.succ_eq_add_one, show i - (a + 1) + 1 = i - a by omega]
    have hbyte : store m a (n + 1) v a = BitVec.ofNat 8 v := by
      rw [store, if_pos (by omega), Nat.sub_self, Nat.pow_zero, Nat.div_one]
    have hpow : 256 ^ (n + 1) = 256 * 256 ^ n := Nat.pow_succ'
    rw [load, hrest, ih, hbyte, BitVec.toNat_ofNat, hpow, Nat.mod_mul]

theorem load_store_of_lt (h : v < 256 ^ n) : load (store m a n v) a n = v := by
  rw [load_store, Nat.mod_eq_of_lt h]

end Ych.ByteMemory
