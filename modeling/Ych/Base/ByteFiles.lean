import Ych.Base.ByteMemory
import Ych.Base.ByteStrings

/-! Files written through a position: slices of memory, what of them is read back from the file,
and what other writes leave of it. -/
namespace Ych.ByteFiles
open Bitmap ByteMemory ByteStrings

def slice (m : Bytes) (p n : Nat) : List Byte := (List.range n).map fun i => m (p + i)

structure File where
  bytes : Bytes
  length : Nat
  position : Nat

def File.emptied : File := ⟨fun _ => 0, 0, 0⟩

/-- A file that grows is filled with zeros. -/
def File.truncate (f : File) (length : Nat) : File :=
  { f with bytes := fun i => if i < min f.length length then f.bytes i else 0, length := length }

def File.seek (f : File) (offset : Nat) : File := { f with position := offset }

def File.write (f : File) (data : List Byte) : File :=
  { bytes := put f.bytes f.position data
    length := max f.length (f.position + data.length)
    position := f.position + data.length }

/-- `n` bytes of one memory, from `a` on, are in the other one from `p` on. -/
def Copied (m : Bytes) (a : Nat) (m' : Bytes) (p n : Nat) : Prop := ∀ i, i < n → m' (p + i) = m (a + i)

structure Piece where
  offset : Nat
  data : List Byte

def Piece.stop (piece : Piece) : Nat := piece.offset + piece.data.length

def Piece.Apart (piece other : Piece) : Prop :=
  piece.stop ≤ other.offset ∨ other.stop ≤ piece.offset

def putAll (m : Bytes) (pieces : List Piece) : Bytes :=
  pieces.foldl (fun m piece => put m piece.offset piece.data) m

def writeAll (f : File) (pieces : List Piece) : File :=
  pieces.foldl (fun f piece => (f.seek piece.offset).write piece.data) f

variable {m m' m'' : Bytes} {a b p n k w : Nat} {data : List Byte} {pieces : List Piece}

@[simp] theorem length_slice : (slice m p n).length = n := by simp [slice]

theorem getElem_slice {i : Nat} (hi : i < (slice m p n).length) : (slice m p n)[i] = m (p + i) := by
  simp [slice]

theorem sameOn_put (h : b ≤ p ∨ p + data.length ≤ a) : SameOn m (put m p data) a b :=
  fun i h1 h2 => put_outside (by omega)

theorem putAll_cons (m : Bytes) (piece : Piece) (pieces : List Piece) :
    putAll m (piece :: pieces) = putAll (put m piece.offset piece.data) pieces := rfl

theorem sameOn_putAll (h : ∀ piece ∈ pieces, b ≤ piece.offset ∨ piece.stop ≤ a) :
    SameOn m (putAll m pieces) a b := by
  induction pieces generalizing m with
  | nil => exact fun _ _ _ => rfl
  | cons piece pieces ih =>
    have hfirst : SameOn m (put m piece.offset piece.data) a b :=
      sameOn_put (h piece List.mem_cons_self)
    exact hfirst.trans (ih fun other hmem => h other (List.mem_cons_of_mem piece hmem))

theorem writeAll_bytes (f : File) (pieces : List Piece) :
    (writeAll f pieces).bytes = putAll f.bytes pieces := by
  induction pieces generalizing f with
  | nil => rfl
  | cons piece pieces ih => exact ih _

theorem length_writeAll (f : File) (pieces : List Piece)
    (h : ∀ piece ∈ pieces, piece.stop ≤ f.length) : (writeAll f pieces).length = f.length := by
  induction pieces generalizing f with
  | nil => rfl
  | cons piece pieces ih =>
    have hfirst : ((f.seek piece.offset).write piece.data).length = f.length :=
      max_eq_left (h piece List.mem_cons_self)
    rw [← hfirst] at h ⊢
    exact ih _ fun other hmem => h other (List.mem_cons_of_mem piece hmem)

theorem Copied.sub (h : Copied m a m' p n) (hk : k + w ≤ n) : Copied m (a + k) m' (p + k) w := by
  intro i hi
  have hbyte := h (k + i) (by omega)
  rwa [← Nat.add_assoc, ← Nat.add_assoc] at hbyte

theorem Copied.keep (h : Copied m a m' p n) (hsame : SameOn m' m'' p (p + n)) :
    Copied m a m'' p n :=
  fun i hi => (hsame (p + i) (by omega) (by omega)).trans (h i hi)

theorem Copied.slice_eq (h : Copied m a m' p n) : slice m' p n = slice m a n :=
  List.map_congr_left fun i hi => h i (List.mem_range.mp hi)

theorem Copied.load_eq (h : Copied m a m' p n) : load m' p n = load m a n := by
  induction n generalizing a p with
  | zero => rfl
  | succ n ih =>
    have hrest : Copied m (a + 1) m' (p + 1) n := h.sub (by omega)
    rw [load, load, ih hrest]
    exact congrArg (·.toNat + _) (h 0 (by omega))

theorem Copied.load_at (h : Copied m a m' p n) (hk : k + w ≤ n) :
    load m' (p + k) w = load m (a + k) w := (h.sub hk).load_eq

theorem copied_put (m' : Bytes) (p : Nat) : Copied m a (put m' p (slice m a n)) p n := by
  intro i hi
  have hlt : i < (slice m a n).length := by simpa using hi
  rw [put_apply hlt, getElem_slice]

theorem copied_putAll (m' : Bytes) {piece : Piece} (hapart : pieces.Pairwise Piece.Apart)
    (hmem : piece ∈ pieces) (hdata : piece.data = slice m a n) :
    Copied m a (putAll m' pieces) piece.offset n := by
  induction pieces generalizing m' with
  | nil => cases hmem
  | cons first pieces ih =>
    cases hapart with
    | cons hfirst hrest =>
      cases hmem with
      | head =>
        have hstop : piece.stop = piece.offset + n := by rw [Piece.stop, hdata, length_slice]
        have hkept : SameOn (put m' piece.offset piece.data)
            (putAll (put m' piece.offset piece.data) pieces) piece.offset piece.stop :=
          sameOn_putAll hfirst
        rw [hdata, hstop] at hkept
        rw [putAll_cons, hdata]
        exact (copied_put m' piece.offset).keep hkept
      | tail _ hmem => exact ih _ hrest hmem

theorem Copied.store (h : Copied m a m' p n) (k w v : Nat) :
    Copied (store m (a + k) w v) a (store m' (p + k) w v) p n := by
  intro i hi
  rw [ByteMemory.store, ByteMemory.store]
  by_cases hin : k ≤ i ∧ i < k + w
  · rw [if_pos (by omega), if_pos (by omega)]
    congr 3
    omega
  · rw [if_neg (by omega), if_neg (by omega)]
    exact h i hi

theorem load_zeros {n : Nat} (h : ∀ k, k < n → m (p + k) = 0) : load m p n = 0 := by
  induction n generalizing p with
  | zero => rfl
  | succ n ih =>
    have hrest : load m (p + 1) n = 0 := ih fun k hk => by
      rw [Nat.add_assoc, Nat.add_comm 1]
      exact h (k + 1) (by omega)
    have hfirst := h 0 (by omega)
    rw [Nat.add_zero] at hfirst
    rw [load, hrest, hfirst]
    rfl

theorem byte_of_load {j : Nat} (hj : j < n) :
    BitVec.ofNat 8 (load m p n / 256 ^ j) = m (p + j) := by
  induction n generalizing p j with
  | zero => omega
  | succ n ih =>
    have hbyte := (m p).isLt
    cases j with
    | zero =>
      rw [load, Nat.pow_zero, Nat.div_one]
      apply BitVec.eq_of_toNat_eq
      rw [BitVec.toNat_ofNat]
      exact (Nat.add_mul_mod_self_left _ _ _).trans (Nat.mod_eq_of_lt hbyte)
    | succ j =>
      have hrest : load m p (n + 1) / 256 ^ (j + 1) = load m (p + 1) n / 256 ^ j := by
        rw [load, Nat.pow_succ', ← Nat.div_div_eq_div_mul, Nat.add_mul_div_left _ _ (by decide),
          Nat.div_eq_of_lt hbyte, Nat.zero_add]
      rw [hrest, ih (by omega)]
      congr 1
      omega

theorem store_load_same : store m p n (load m p n) = m := by
  funext i
  rw [ByteMemory.store]
  split
  · rename_i hin
    rw [byte_of_load (by omega)]
    congr 1
    omega
  · rfl

theorem store_store (v v' : Nat) : store (store m p n v) p n v' = store m p n v' := by
  funext i
  simp only [ByteMemory.store]
  split <;> rfl

end Ych.ByteFiles
