import Ych.Base.ByteMemory
import Mathlib.Data.List.Induction

/-! A stack of quadwords in byte memory, growing down. -/
namespace Ych.QuadStack
open Bitmap ByteMemory

def quad (m : Bytes) (a : Nat) : BitVec 64 := BitVec.ofNat 64 (load m a 8)

def quads (m : Bytes) (a : Nat) : Nat → List (BitVec 64)
  | 0 => []
  | n + 1 => quad m a :: quads m (a + 8) n

structure Stack where
  memory : Bytes
  sp : BitVec 64

def Stack.push (s : Stack) (v : BitVec 64) : Stack :=
  { memory := store s.memory (s.sp - 8).toNat 8 v.toNat, sp := s.sp - 8 }

def Stack.top (s : Stack) : BitVec 64 := quad s.memory s.sp.toNat

def Stack.drop (s : Stack) (n : BitVec 64) : Stack := { s with sp := s.sp + n }

def Stack.pushAll (s : Stack) (vs : List (BitVec 64)) : Stack := vs.foldl Stack.push s

variable {s : Stack} {m m' : Bytes} {a n : Nat} {v : BitVec 64} {vs ws : List (BitVec 64)}

@[simp] theorem length_quads : (quads m a n).length = n := by
  induction n generalizing a with
  | zero => rfl
  | succ n ih => simp [quads, ih]

theorem quad_congr (h : SameOn m m' a (a + 8)) : quad m' a = quad m a := by
  rw [quad, quad, load_congr h]

theorem quads_congr (h : SameOn m m' a (a + 8 * n)) : quads m' a n = quads m a n := by
  induction n generalizing a with
  | zero => rfl
  | succ n ih =>
    rw [quads, quads, quad_congr (h.mono le_rfl (by omega)),
      ih (h.mono (by omega) (by omega))]

theorem quad_store : quad (store m a 8 v.toNat) a = v := by
  rw [quad, load_store_of_lt (v.isLt.trans_eq (by norm_num)), BitVec.ofNat_toNat,
    BitVec.setWidth_eq]

theorem toNat_sub_eight (h : 8 ≤ s.sp.toNat) : (s.sp - 8).toNat = s.sp.toNat - 8 := by
  rw [BitVec.toNat_sub_of_le (by simpa [BitVec.le_def] using h)]
  rfl

theorem pushAll_append : s.pushAll (vs ++ ws) = (s.pushAll vs).pushAll ws := by
  rw [Stack.pushAll, List.foldl_append]
  rfl

theorem toNat_pushAll (h : 8 * vs.length ≤ s.sp.toNat) :
    (s.pushAll vs).sp.toNat = s.sp.toNat - 8 * vs.length := by
  induction vs generalizing s with
  | nil => rfl
  | cons v vs ih =>
    rw [List.length_cons] at h ⊢
    have hsp : (s.push v).sp.toNat = s.sp.toNat - 8 := toNat_sub_eight (by omega)
    have hrest : (s.pushAll (v :: vs)) = (s.push v).pushAll vs := rfl
    rw [hrest, ih (by omega), hsp]
    omega

theorem sameOn_pushAll (b : Nat) (h : 8 * vs.length ≤ s.sp.toNat) :
    SameOn s.memory (s.pushAll vs).memory s.sp.toNat b := by
  induction vs generalizing s with
  | nil => exact fun _ _ _ => rfl
  | cons v vs ih =>
    rw [List.length_cons] at h
    have hsp : (s.push v).sp.toNat = s.sp.toNat - 8 := toNat_sub_eight (by omega)
    have hfirst : SameOn s.memory (s.push v).memory s.sp.toNat b := by
      refine sameOn_store (Or.inr ?_)
      rw [toNat_sub_eight (by omega)]
      omega
    have hrest := ih (s := s.push v) (by omega)
    exact hfirst.trans (hrest.mono (by omega) le_rfl)

theorem quads_pushAll (h : 8 * vs.length ≤ s.sp.toNat) :
    quads (s.pushAll vs).memory (s.pushAll vs).sp.toNat vs.length = vs.reverse := by
  induction vs using List.reverseRecOn with
  | nil => rfl
  | append_singleton vs v ih =>
    rw [List.length_append, List.length_singleton] at h ⊢
    have hsp : (s.pushAll vs).sp.toNat = s.sp.toNat - 8 * vs.length := toNat_pushAll (by omega)
    have hlast : s.pushAll (vs ++ [v]) = (s.pushAll vs).push v := pushAll_append
    have hnew : ((s.pushAll vs).push v).sp.toNat = (s.pushAll vs).sp.toNat - 8 :=
      toNat_sub_eight (by omega)
    have hsame : SameOn (s.pushAll vs).memory ((s.pushAll vs).push v).memory
        (s.pushAll vs).sp.toNat ((s.pushAll vs).sp.toNat + 8 * vs.length) := by
      refine sameOn_store (Or.inr ?_)
      rw [toNat_sub_eight (by omega)]
      omega
    have htop : quad ((s.pushAll vs).push v).memory ((s.pushAll vs).push v).sp.toNat = v :=
      quad_store
    have hback : ((s.pushAll vs).push v).sp.toNat + 8 = (s.pushAll vs).sp.toNat := by omega
    rw [hlast, quads, htop, hback, quads_congr hsame, ih (by omega), List.reverse_append,
      List.reverse_singleton, List.singleton_append]

theorem quads_add (k : Nat) : quads m a (k + n) = quads m a k ++ quads m (a + 8 * k) n := by
  induction k generalizing a with
  | zero => simp [quads]
  | succ k ih =>
    rw [Nat.succ_add, quads, ih, quads, List.cons_append]
    rw [show a + 8 + 8 * k = a + 8 * (k + 1) by omega]

theorem getElem?_quads {i : Nat} (hi : i < n) : (quads m a n)[i]? = some (quad m (a + 8 * i)) := by
  induction n generalizing a i with
  | zero => omega
  | succ n ih =>
    cases i with
    | zero => rfl
    | succ i =>
      rw [quads, List.getElem?_cons_succ, ih (by omega)]
      rw [show a + 8 + 8 * i = a + 8 * (i + 1) by omega]

end Ych.QuadStack
