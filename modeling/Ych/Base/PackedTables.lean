import Ych.Base.ByteMemory

/-! Packed structures written field by field, and arrays of entries filled one after the other. -/
namespace Ych.PackedTables
open Bitmap ByteMemory

structure FieldStore where
  offset : Nat
  size : Nat
  value : Nat

def FieldStore.Apart (f g : FieldStore) : Prop :=
  f.offset + f.size ≤ g.offset ∨ g.offset + g.size ≤ f.offset

def storeFields (m : Bytes) (p : Nat) (fields : List FieldStore) : Bytes :=
  fields.foldl (fun m f => store m (p + f.offset) f.size f.value) m

/-- The loop `for (i = 0; i < n; i++)` over the entries. -/
def fillEntries (write : Bytes → Nat → Bytes) (m : Bytes) : Nat → Bytes
  | 0 => m
  | n + 1 => write (fillEntries write m n) n

variable {m : Bytes} {p a b : Nat} {f : FieldStore} {fields : List FieldStore}

theorem storeFields_cons (f : FieldStore) (fields : List FieldStore) :
    storeFields m p (f :: fields) =
      storeFields (store m (p + f.offset) f.size f.value) p fields := rfl

theorem sameOn_storeFields
    (h : ∀ f ∈ fields, b ≤ p + f.offset ∨ p + f.offset + f.size ≤ a) :
    SameOn m (storeFields m p fields) a b := by
  induction fields generalizing m with
  | nil => exact fun _ _ _ => rfl
  | cons f fields ih =>
    have hfirst : SameOn m (store m (p + f.offset) f.size f.value) a b :=
      sameOn_store (h f List.mem_cons_self)
    rw [storeFields_cons]
    exact hfirst.trans (ih fun g hg => h g (List.mem_cons_of_mem f hg))

/-- Fields that do not overlap can be written in any order. -/
theorem load_storeFields (hapart : fields.Pairwise FieldStore.Apart) (hf : f ∈ fields) :
    load (storeFields m p fields) (p + f.offset) f.size = f.value % 256 ^ f.size := by
  induction fields generalizing m with
  | nil => cases hf
  | cons g fields ih =>
    rw [storeFields_cons]
    cases hapart with
    | cons hg hrest =>
      cases hf with
      | head =>
        rw [load_congr (sameOn_storeFields fun g hmem => ?_), load_store]
        cases hg g hmem with
        | inl hbelow => left; omega
        | inr habove => right; omega
      | tail _ hmem => exact ih hrest hmem

variable {write : Bytes → Nat → Bytes} {base size n i : Nat} {α : Type*}

def WithinEntry (write : Bytes → Nat → Bytes) (base size : Nat) : Prop :=
  ∀ m i a b, b ≤ base + size * i ∨ base + size * (i + 1) ≤ a → SameOn m (write m i) a b

theorem sameOn_fillEntries (hwithin : WithinEntry write base size)
    (h : b ≤ base ∨ base + size * n ≤ a) : SameOn m (fillEntries write m n) a b := by
  induction n with
  | zero => exact fun _ _ _ => rfl
  | succ n ih =>
    have hmono : size * n ≤ size * (n + 1) := Nat.mul_le_mul_left size (Nat.le_succ n)
    have hlast : SameOn (fillEntries write m n) (fillEntries write m (n + 1)) a b :=
      hwithin _ n a b (by omega)
    exact (ih (by omega)).trans hlast

theorem read_fillEntries (read : Bytes → Nat → α) (value : Nat → α)
    (hwithin : WithinEntry write base size)
    (hread : ∀ m m' i, SameOn m m' (base + size * i) (base + size * (i + 1)) →
      read m' i = read m i)
    (hwrite : ∀ m i, i < n → read (write m i) i = value i) (hi : i < n) :
    read (fillEntries write m n) i = value i := by
  induction n with
  | zero => omega
  | succ n ih =>
    by_cases hlast : i = n
    · rw [hlast]
      exact hwrite _ n (Nat.lt_succ_self n)
    · have hbefore : size * (i + 1) ≤ size * n := Nat.mul_le_mul_left size (by omega)
      have hkept : SameOn (fillEntries write m n) (fillEntries write m (n + 1))
          (base + size * i) (base + size * (i + 1)) := hwithin _ n _ _ (by omega)
      rw [hread _ _ i hkept]
      exact ih (fun m j hj => hwrite m j (by omega)) (by omega)

end Ych.PackedTables
