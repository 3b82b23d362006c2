import Ych.Base.ByteFiles

/-! Pixels of four bytes, row by row in memory: what stores of single pixels paint on two buffers
that show the same, and rows that are moved. -/
namespace Ych.Raster
open Bitmap ByteMemory ByteFiles

/-- A buffer of pixel rows; the buffer may be larger than the rows. -/
structure Surface where
  base : Nat
  stride : Nat
  rows : Nat
  extent : Nat
  fits : 4 * (rows * stride) ≤ extent

namespace Surface

def stop (u : Surface) : Nat := u.base + u.extent

def address (u : Surface) (row column : Nat) : Nat := u.base + 4 * (row * u.stride + column)

def pixel (u : Surface) (m : Bytes) (row column : Nat) : Nat := load m (u.address row column) 4

def put (u : Surface) (m : Bytes) (row column color : Nat) : Bytes :=
  store m (u.address row column) 4 color

def Apart (u v : Surface) : Prop := u.stop ≤ v.base ∨ v.stop ≤ u.base

theorem Apart.symm {u v : Surface} (h : Apart u v) : Apart v u := Or.symm h

end Surface

structure Dot where
  row : Nat
  column : Nat
  color : Nat

def Dot.At (d : Dot) (row column : Nat) : Prop := d.row = row ∧ d.column = column

instance (d : Dot) (row column : Nat) : Decidable (d.At row column) :=
  inferInstanceAs (Decidable (_ ∧ _))

def repainted (dots : List Dot) (row column old : Nat) : Nat :=
  dots.foldl (fun color d => if d.At row column then d.color % 2 ^ 32 else color) old

variable {u v : Surface} {m m' m'' : Bytes} {row column row' column' color old : Nat}
  {dots dots' : List Dot}

theorem repainted_append : repainted (dots ++ dots') row column old =
    repainted dots' row column (repainted dots row column old) := List.foldl_append

theorem repainted_cons (d : Dot) : repainted (d :: dots) row column old =
    repainted dots row column (if d.At row column then d.color % 2 ^ 32 else old) := rfl

theorem repainted_of_not_at (h : ∀ d ∈ dots, ¬ d.At row column) :
    repainted dots row column old = old := by
  induction dots with
  | nil => rfl
  | cons d dots ih =>
    rw [repainted_cons, if_neg (h d List.mem_cons_self)]
    exact ih fun e he => h e (List.mem_cons_of_mem d he)

theorem repainted_of_at (hall : ∀ d ∈ dots, d.At row column → d.color % 2 ^ 32 = color)
    (hex : ∃ d ∈ dots, d.At row column) : repainted dots row column old = color := by
  induction dots generalizing old with
  | nil => simp at hex
  | cons d dots ih =>
    rw [repainted_cons]
    by_cases hrest : ∃ e ∈ dots, e.At row column
    · exact ih (fun e he => hall e (List.mem_cons_of_mem d he)) hrest
    · have hfirst : d.At row column := by simpa [hrest] using hex
      rw [if_pos hfirst, hall d List.mem_cons_self hfirst]
      exact repainted_of_not_at fun e he hat => hrest ⟨e, he, hat⟩

theorem index_inj {stride : Nat} (hc : column < stride) (hc' : column' < stride)
    (h : row * stride + column = row' * stride + column') : row = row' ∧ column = column' := by
  have hpos : 0 < stride := Nat.zero_lt_of_lt hc
  have hrow : row = row' := by
    have hdiv := congrArg (· / stride) h
    simpa [Nat.add_comm, Nat.add_mul_div_right, hpos, Nat.div_eq_of_lt hc,
      Nat.div_eq_of_lt hc'] using hdiv
  subst hrow
  exact ⟨rfl, Nat.add_left_cancel h⟩

theorem index_lt {stride rows : Nat} (hr : row < rows) (hc : column < stride) :
    row * stride + column < rows * stride := by
  have hmul := Nat.mul_le_mul_right stride hr
  rw [Nat.succ_mul] at hmul
  omega

theorem Surface.address_stop (u : Surface) (hr : row < u.rows) (hc : column < u.stride) :
    u.address row column + 4 ≤ u.stop := by
  have hlt := index_lt hr hc
  have hfits := u.fits
  rw [Surface.address, Surface.stop]
  omega

theorem pixel_put (hc : column < u.stride) (hc' : column' < u.stride) :
    u.pixel (u.put m row column color) row' column' =
      if row = row' ∧ column = column' then color % 2 ^ 32 else u.pixel m row' column' := by
  by_cases hsame : row = row' ∧ column = column'
  · rw [if_pos hsame, ← hsame.1, ← hsame.2]
    exact load_store _ _ _ _
  · have hindex : row * u.stride + column ≠ row' * u.stride + column' := fun heq =>
      hsame (index_inj hc hc' heq)
    rw [if_neg hsame, Surface.pixel]
    refine load_congr (sameOn_store ?_)
    simp only [Surface.address]
    omega

theorem sameOn_put {a b : Nat} (hr : row < u.rows) (hc : column < u.stride)
    (h : b ≤ u.base ∨ u.stop ≤ a) : SameOn m (u.put m row column color) a b := by
  have hstop := u.address_stop hr hc
  have hbase : u.base ≤ u.address row column := Nat.le_add_right _ _
  exact sameOn_store (by omega)

theorem pixel_congr (h : SameOn m m' u.base u.stop) (hr : row < u.rows) (hc : column < u.stride) :
    u.pixel m' row column = u.pixel m row column :=
  load_congr (h.mono (Nat.le_add_right _ _) (u.address_stop hr hc))

/-- The stores were made to both buffers, and nothing else was written. -/
structure Painted (u v : Surface) (m : Bytes) (dots : List Dot) (m' : Bytes) : Prop where
  first : ∀ row column, row < u.rows → column < u.stride →
    u.pixel m' row column = repainted dots row column (u.pixel m row column)
  second : ∀ row column, row < v.rows → column < v.stride →
    v.pixel m' row column = repainted dots row column (v.pixel m row column)
  rest : ∀ a b, b ≤ u.base ∨ u.stop ≤ a → b ≤ v.base ∨ v.stop ≤ a → SameOn m m' a b

theorem Painted.refl (u v : Surface) (m : Bytes) : Painted u v m [] m :=
  ⟨fun _ _ _ _ => rfl, fun _ _ _ _ => rfl, fun _ _ _ _ _ _ _ => rfl⟩

theorem Painted.symm (h : Painted u v m dots m') : Painted v u m dots m' :=
  ⟨h.second, h.first, fun a b hv hu => h.rest a b hu hv⟩

theorem Painted.trans (h : Painted u v m dots m') (h' : Painted u v m' dots' m'') :
    Painted u v m (dots ++ dots') m'' where
  first row column hr hc := by
    rw [h'.first row column hr hc, h.first row column hr hc, repainted_append]
  second row column hr hc := by
    rw [h'.second row column hr hc, h.second row column hr hc, repainted_append]
  rest a b hu hv := (h.rest a b hu hv).trans (h'.rest a b hu hv)

theorem painted_put (hapart : u.Apart v) (hstride : u.stride = v.stride) (hu : row < u.rows)
    (hv : row < v.rows) (hc : column < u.stride) :
    Painted u v m [⟨row, column, color⟩]
      (v.put (u.put m row column color) row column color) where
  first row' column' hr' hc' := by
    have hkept : SameOn (u.put m row column color)
        (v.put (u.put m row column color) row column color) u.base u.stop :=
      sameOn_put hv (hstride ▸ hc) hapart
    rw [pixel_congr hkept hr' hc', pixel_put hc hc']
    rfl
  second row' column' hr' hc' := by
    have hkept : SameOn m (u.put m row column color) v.base v.stop :=
      sameOn_put hu hc hapart.symm
    rw [pixel_put (hstride ▸ hc) hc', pixel_congr hkept hr' hc']
    rfl
  rest a b hau hav := (sameOn_put hu hc hau).trans (sameOn_put hv (hstride ▸ hc) hav)

theorem painted_foldl {α : Type*} {step : Bytes → α → Bytes} {g : α → List Dot} (l : List α)
    (hstep : ∀ m, ∀ a ∈ l, Painted u v m (g a) (step m a)) (m : Bytes) :
    Painted u v m (l.flatMap g) (l.foldl step m) := by
  induction l generalizing m with
  | nil => exact Painted.refl u v m
  | cons a l ih =>
    have hfirst := hstep m a List.mem_cons_self
    exact hfirst.trans (ih (fun m b hb => hstep m b (List.mem_cons_of_mem a hb)) _)

theorem pixel_copied {shift n : Nat} (hstride : v.stride = u.stride)
    (hcopied : Copied m (u.address shift 0) m' v.base n)
    (hn : 4 * (row * v.stride + column) + 4 ≤ n) :
    v.pixel m' row column = u.pixel m (row + shift) column := by
  have hload := hcopied.load_at hn
  have haddress : u.address shift 0 + 4 * (row * v.stride + column) =
      u.address (row + shift) column := by
    rw [Surface.address, Surface.address, hstride, Nat.add_mul]
    omega
  rw [haddress] at hload
  exact hload

end Ych.Raster
