import Mathlib.Data.Nat.Basic
import Mathlib.Order.Basic

/-! Text set on endless paper, cell by cell with full lines broken, and a window of its last lines
that scrolls up with it. -/
namespace Ych.Typesetting

/-- Cells by line and column, and where the next one is set. -/
structure Paper (α : Type*) where
  cells : Nat → Nat → α
  line : Nat
  column : Nat

inductive Mark (α : Type*) where
  | glyph (a : α)
  | newline

variable {α : Type*}

def Mark.bare : Mark α → Mark Unit
  | .glyph _ => .glyph ()
  | .newline => .newline

namespace Paper

def newline (P : Paper α) : Paper α := { P with line := P.line + 1, column := 0 }

def set (P : Paper α) (a : α) : Paper α :=
  { P with
    cells := fun k j => if k = P.line ∧ j = P.column then a else P.cells k j
    column := P.column + 1 }

/-- A line is broken as soon as it is full. -/
def mark (columns : Nat) (P : Paper α) : Mark α → Paper α
  | .newline => P.newline
  | .glyph a => if columns ≤ P.column + 1 then (P.set a).newline else P.set a

def run (columns : Nat) (P : Paper α) (marks : List (Mark α)) : Paper α :=
  marks.foldl (mark columns) P

/-- The first line of a window in which the last line is at most the given one. -/
def top (lines : Nat) (P : Paper α) : Nat := P.line - min P.line lines

def window (lines : Nat) (P : Paper α) (k j : Nat) : α := P.cells (P.top lines + k) j

def WrapsAtEnd (columns lines : Nat) (P : Paper α) : Mark α → Prop
  | .newline => False
  | .glyph _ => columns ≤ P.column + 1 ∧ lines ≤ P.line

def Unwrapped (columns lines : Nat) : Paper α → List (Mark α) → Prop
  | _, [] => True
  | P, a :: marks => ¬ P.WrapsAtEnd columns lines a ∧
      Unwrapped columns lines (P.mark columns a) marks

/-- Behind the last line the paper is as it was. -/
def Fresh (blank : Nat → Nat → α) (P : Paper α) : Prop :=
  ∀ k j, P.line < k → P.cells k j = blank k j

variable {P : Paper α} {a : α} {columns lines k j : Nat} {blank : Nat → Nat → α}
  {marks marks' : List (Mark α)}

theorem run_append : P.run columns (marks ++ marks') = (P.run columns marks).run columns marks' :=
  List.foldl_append

theorem unwrapped_append : Unwrapped columns lines P (marks ++ marks') ↔
    Unwrapped columns lines P marks ∧ Unwrapped columns lines (P.run columns marks) marks' := by
  induction marks generalizing P with
  | nil => simp [Unwrapped, run]
  | cons a marks ih =>
    rw [List.cons_append, Unwrapped, Unwrapped, ih, and_assoc]
    rfl

theorem unwrapped_bare {Q : Paper Unit} (hline : Q.line = P.line) (hcolumn : Q.column = P.column) :
    Unwrapped columns lines Q (marks.map Mark.bare) ↔ Unwrapped columns lines P marks := by
  induction marks generalizing P Q with
  | nil => rfl
  | cons a marks ih =>
    rw [List.map_cons, Unwrapped, Unwrapped]
    cases a with
    | newline => exact and_congr Iff.rfl (ih (congrArg Nat.succ hline) rfl)
    | glyph a =>
      refine and_congr ?_ (ih ?_ ?_)
      · simp only [Mark.bare, WrapsAtEnd, hline, hcolumn]
      · simp only [Mark.bare, mark, hcolumn]
        split <;> simp [set, newline, hline]
      · simp only [Mark.bare, mark, hcolumn]
        split <;> simp [set, newline, hcolumn]

instance decidableWrapsAtEnd (columns lines : Nat) (P : Paper α) :
    (a : Mark α) → Decidable (P.WrapsAtEnd columns lines a)
  | .newline => inferInstanceAs (Decidable False)
  | .glyph _ => inferInstanceAs (Decidable (columns ≤ P.column + 1 ∧ lines ≤ P.line))

instance decidableUnwrapped (columns lines : Nat) :
    (P : Paper α) → (marks : List (Mark α)) → Decidable (Unwrapped columns lines P marks)
  | _, [] => inferInstanceAs (Decidable True)
  | P, a :: marks =>
    have := decidableUnwrapped columns lines (P.mark columns a) marks
    inferInstanceAs (Decidable (¬ P.WrapsAtEnd columns lines a ∧
      Unwrapped columns lines (P.mark columns a) marks))

theorem Fresh.newline (h : P.Fresh blank) : P.newline.Fresh blank :=
  fun k j hk => h k j (Nat.lt_of_succ_lt hk)

theorem Fresh.set (h : P.Fresh blank) (a : α) : (P.set a).Fresh blank := by
  intro k j hk
  have hother : ¬ (k = P.line ∧ j = P.column) := fun heq => absurd heq.1 (Nat.ne_of_gt hk)
  exact (if_neg hother).trans (h k j hk)

theorem window_newline (h : P.line < lines) : P.newline.window lines = P.window lines := by
  have htop : P.newline.top lines = P.top lines := by
    simp only [top, newline]
    omega
  funext k j
  rw [window, window, htop]
  rfl

theorem window_scrolled (h : lines ≤ P.line) :
    P.newline.window lines k j = P.window lines (k + 1) j := by
  have htop : P.newline.top lines = P.top lines + 1 := by
    simp only [top, newline]
    omega
  rw [window, window, htop, Nat.add_right_comm, Nat.add_assoc]
  rfl

theorem window_set : (P.set a).window lines k j =
    if k = min P.line lines ∧ j = P.column then a else P.window lines k j := by
  have hline : P.top lines + k = P.line ↔ k = min P.line lines := by
    rw [top]
    omega
  have htop : (P.set a).top lines = P.top lines := rfl
  rw [window, htop]
  simp only [set, hline]
  rfl

theorem Fresh.window (h : P.Fresh blank) (hk : min P.line lines < k) :
    P.window lines k j = blank (P.top lines + k) j := by
  refine h _ _ ?_
  rw [top]
  omega

end Paper

end Ych.Typesetting
