import Ych.Earlyvideo.DisplaywideTextProtocol

/-! Where the pixels of printed characters land: the cursor as columns and line breaks, and the
texts that stay above the end of the frame buffer. -/
namespace Ych.Dwtp
open Words Krnlstring

/-- Scrolling where the lock does not count. -/
def scrollUnlocked (s : DwtpSystem) : Except Stop DwtpSystem := .ok (krdwtpScroll_NoSpin s)

def printUnlocked (s : DwtpSystem) (prints : List (CHAR × Nat × Nat)) : Except Stop DwtpSystem :=
  prints.foldlM (fun s e => outCharacterWith scrollUnlocked s e.1 e.2.1 e.2.2) s

structure RoomyScreen (p : KrDisplaywideTextProtocolState) : Prop where
  stride : p.frameBufferWidth ≤ p.pixelsPerScanLine
  size : p.frameBufferHeight * p.pixelsPerScanLine * 4 ≤ p.frameBufferSize
  size32 : p.frameBufferSize < 2 ^ 32
  columns : p.font.columnsPerEntry = 8
  rows : 0 < p.font.rowsPerEntry
  scale : 0 < p.font.scaleFactor
  width : 8 * p.font.scaleFactor ≤ p.frameBufferWidth
  height : p.font.rowsPerEntry * p.font.scaleFactor ≤ p.frameBufferHeight

def InFrame (p : KrDisplaywideTextProtocolState) (e : PixelStore) : Prop :=
  e.row < p.frameBufferHeight ∧ e.column < p.frameBufferWidth

def lineColumns (p : KrDisplaywideTextProtocolState) : Nat :=
  p.frameBufferWidth / (p.font.columnsPerEntry * p.font.scaleFactor)

def textLines (p : KrDisplaywideTextProtocolState) : Nat :=
  p.frameBufferHeight / (p.font.rowsPerEntry * p.font.scaleFactor)

/-- The line breaks of a text from a column on: its newlines, and the lines it fills. -/
def lineBreaks (columns : Nat) : Nat → List CHAR → Nat
  | _, [] => 0
  | x, c :: text =>
    if c = ch '\n' ∨ columns ≤ x + 1 then lineBreaks columns 0 text + 1
    else lineBreaks columns (x + 1) text

/-- Each glyph of the text comes after fewer line breaks than there are lines. -/
def FitsLines (columns lines x : Nat) (text : List CHAR) : Prop :=
  ∀ a c b, text = a ++ c :: b → c ≠ ch '\n' → lineBreaks columns x a < lines

def shownText (p : KrDisplaywideTextProtocolState) (prints : List (CHAR × Nat × Nat)) :
    List CHAR := (prints.map Prod.fst).filter fun c => Shown p c

def place (p : KrDisplaywideTextProtocolState) (x y : Nat) : KrDisplaywideTextProtocolState :=
  { p with cursorX := x, cursorY := y }

variable {p : KrDisplaywideTextProtocolState} {s s' : DwtpSystem} {c : CHAR}
  {columns lines x y k : Nat} {text : List CHAR}

theorem fitsLines_nil : FitsLines columns lines x [] := by
  intro a c b h
  exact absurd h (by simp)

theorem fitsLines_cons :
    FitsLines columns lines x (c :: text) ↔
      (c ≠ ch '\n' → 0 < lines) ∧
      if c = ch '\n' ∨ columns ≤ x + 1 then FitsLines columns (lines - 1) 0 text
      else FitsLines columns lines (x + 1) text := by
  constructor
  · intro h
    refine ⟨fun hc => h [] c text rfl hc, ?_⟩
    split
    · rename_i hbreak
      intro a d b heq hd
      have := h (c :: a) d b (by rw [heq, List.cons_append]) hd
      rw [lineBreaks, if_pos hbreak] at this
      omega
    · rename_i hbreak
      intro a d b heq hd
      have := h (c :: a) d b (by rw [heq, List.cons_append]) hd
      rwa [lineBreaks, if_neg hbreak] at this
  · rintro ⟨hfirst, hrest⟩ a d b heq hd
    cases a with
    | nil =>
      rw [List.nil_append, List.cons.injEq] at heq
      exact hfirst (heq.1 ▸ hd)
    | cons e a =>
      rw [List.cons_append, List.cons.injEq] at heq
      obtain ⟨rfl, htext⟩ := heq
      rw [lineBreaks]
      split
      · rename_i hbreak
        rw [if_pos hbreak] at hrest
        have := hrest a d b htext hd
        omega
      · rename_i hbreak
        rw [if_neg hbreak] at hrest
        exact hrest a d b htext hd

instance decidableFitsLines (columns : Nat) :
    (lines x : Nat) → (text : List CHAR) → Decidable (FitsLines columns lines x text)
  | _, _, [] => .isTrue fitsLines_nil
  | lines, x, _ :: text =>
    have := decidableFitsLines columns (lines - 1) 0 text
    have := decidableFitsLines columns lines (x + 1) text
    decidable_of_iff _ fitsLines_cons.symm

namespace RoomyScreen

theorem height_small (h : RoomyScreen p) : p.frameBufferHeight < 2 ^ 27 := by
  have hstride : 8 ≤ p.pixelsPerScanLine := by
    have := h.scale
    have := h.width
    have := h.stride
    omega
  have := Nat.mul_le_mul_left p.frameBufferHeight hstride
  have := h.size
  have := h.size32
  omega

theorem width_small (h : RoomyScreen p) : p.frameBufferWidth < 2 ^ 30 := by
  have hheight : 1 ≤ p.frameBufferHeight :=
    le_trans (Nat.mul_pos h.rows h.scale) h.height
  have := Nat.mul_le_mul_right p.pixelsPerScanLine hheight
  have := h.stride
  have := h.size
  have := h.size32
  omega

theorem cellHeight_eq (h : RoomyScreen p) :
    cellHeight p = p.font.rowsPerEntry * p.font.scaleFactor := by
  have := h.height
  have := h.height_small
  rw [cellHeight, wrap32_of_lt (by omega)]

theorem cellWidth_eq (h : RoomyScreen p) :
    cellWidth p = p.font.columnsPerEntry * p.font.scaleFactor := by
  have := h.width
  have := h.width_small
  rw [cellWidth, wrap32_of_lt (by rw [h.columns]; omega)]

theorem cellHeight_ne (h : RoomyScreen p) : cellHeight p ≠ 0 := by
  rw [h.cellHeight_eq]
  exact Nat.ne_of_gt (Nat.mul_pos h.rows h.scale)

theorem cellWidth_ne (h : RoomyScreen p) : cellWidth p ≠ 0 := by
  rw [h.cellWidth_eq, h.columns]
  exact Nat.ne_of_gt (Nat.mul_pos (by decide) h.scale)

theorem place (h : RoomyScreen p) (x y : Nat) : RoomyScreen (place p x y) :=
  ⟨h.stride, h.size, h.size32, h.columns, h.rows, h.scale, h.width, h.height⟩

theorem columns_pos (h : RoomyScreen p) : 0 < lineColumns p := by
  rw [lineColumns, h.columns]
  exact Nat.div_pos h.width (Nat.mul_pos (by decide) h.scale)

end RoomyScreen

theorem cell_lt {rows scale row scalar : Nat} (hrow : row < rows) (hscalar : scalar < scale) :
    row * scale + scalar < rows * scale := by
  have := Nat.mul_le_mul_right scale hrow
  rw [Nat.succ_mul] at this
  omega

theorem cell_within {cursor limit extent cell pixel : Nat} (hcursor : cursor < limit)
    (hlimit : limit * cell ≤ extent) (hpixel : pixel < cell) : cursor * cell + pixel < extent := by
  have := Nat.mul_le_mul_right cell hcursor
  rw [Nat.succ_mul] at this
  omega

/-- The cursor is in a line of the screen, or directly below the last. -/
structure OnScreen (p : KrDisplaywideTextProtocolState) : Prop where
  column : p.cursorX < lineColumns p
  line : p.cursorY ≤ textLines p

variable {row bit scalarY scalarX : Nat}

theorem pixel_column (h : RoomyScreen p) (hon : OnScreen p) (hbit : bit < 8)
    (hx : scalarX < p.font.scaleFactor) :
    (pixelPosition p row bit scalarY scalarX).2 < p.frameBufferWidth := by
  have hpixel := cell_lt hbit hx
  have hlimit : lineColumns p * (8 * p.font.scaleFactor) ≤ p.frameBufferWidth := by
    rw [lineColumns, h.columns]
    exact Nat.div_mul_le_self _ _
  have hin := cell_within hon.column hlimit hpixel
  have hsmall := h.width_small
  have hstart : p.cursorX * p.font.columnsPerEntry * p.font.scaleFactor =
      p.cursorX * (8 * p.font.scaleFactor) := by rw [h.columns, Nat.mul_assoc]
  change wrap32 (wrap32 (p.cursorX * p.font.columnsPerEntry * p.font.scaleFactor) +
    bit * p.font.scaleFactor + scalarX) < _
  rw [hstart]
  have hfirst : wrap32 (p.cursorX * (8 * p.font.scaleFactor)) =
      p.cursorX * (8 * p.font.scaleFactor) := wrap32_of_lt (by omega)
  rw [hfirst, wrap32_of_lt (by omega)]
  omega

theorem pixel_row (h : RoomyScreen p) (hon : OnScreen p) (hrow : row < p.font.rowsPerEntry)
    (hy : scalarY < p.font.scaleFactor) :
    (pixelPosition p row bit scalarY scalarX).1 =
      p.cursorY * (p.font.rowsPerEntry * p.font.scaleFactor) +
        (row * p.font.scaleFactor + scalarY) := by
  have hpixel := cell_lt hrow hy
  have hstart : p.cursorY * p.font.rowsPerEntry * p.font.scaleFactor =
      p.cursorY * (p.font.rowsPerEntry * p.font.scaleFactor) := Nat.mul_assoc _ _ _
  have hline : p.cursorY * (p.font.rowsPerEntry * p.font.scaleFactor) ≤ p.frameBufferHeight :=
    le_trans (Nat.mul_le_mul_right _ hon.line) (Nat.div_mul_le_self _ _)
  have hheight := h.height
  have hsmall := h.height_small
  change wrap32 (wrap32 (p.cursorY * p.font.rowsPerEntry * p.font.scaleFactor) +
    row * p.font.scaleFactor + scalarY) = _
  rw [hstart]
  have hfirst : wrap32 (p.cursorY * (p.font.rowsPerEntry * p.font.scaleFactor)) =
      p.cursorY * (p.font.rowsPerEntry * p.font.scaleFactor) := wrap32_of_lt (by omega)
  rw [hfirst, wrap32_of_lt (by omega), Nat.add_assoc]

theorem mem_glyphPositions {q : Nat × Nat} :
    q ∈ glyphPositions p ↔ ∃ row < p.font.rowsPerEntry, ∃ bit < p.font.columnsPerEntry,
      ∃ scalarY < p.font.scaleFactor, ∃ scalarX < p.font.scaleFactor,
        q = pixelPosition p row bit scalarY scalarX := by
  simp only [glyphPositions, List.mem_flatMap, List.mem_range, List.mem_singleton]

/-- A glyph is inside the frame buffer exactly if its line is one of the screen's. -/
theorem glyph_inFrame (h : RoomyScreen p) (hon : OnScreen p) :
    (∀ q ∈ glyphPositions p, q.1 < p.frameBufferHeight ∧ q.2 < p.frameBufferWidth) ↔
      p.cursorY < textLines p := by
  constructor
  · intro hall
    by_contra hbelow
    have hlast : p.cursorY = textLines p := le_antisymm hon.line (Nat.le_of_not_lt hbelow)
    have hrow : p.font.rowsPerEntry - 1 < p.font.rowsPerEntry := Nat.sub_lt h.rows Nat.one_pos
    have hscale : p.font.scaleFactor - 1 < p.font.scaleFactor := Nat.sub_lt h.scale Nat.one_pos
    have hmem := mem_glyphPositions.mpr ⟨_, hrow, 0, by rw [h.columns]; decide, _, hscale, 0,
      h.scale, rfl⟩
    have hin := (hall _ hmem).1
    rw [pixel_row h hon hrow hscale, hlast] at hin
    -- the last pixel row of a cell below the last line
    have hend : (p.font.rowsPerEntry - 1) * p.font.scaleFactor + (p.font.scaleFactor - 1) + 1 =
        p.font.rowsPerEntry * p.font.scaleFactor := by
      have := h.scale
      have hsplit : (p.font.rowsPerEntry - 1 + 1) * p.font.scaleFactor =
          p.font.rowsPerEntry * p.font.scaleFactor := by rw [Nat.sub_add_cancel h.rows]
      rw [Nat.succ_mul] at hsplit
      omega
    have hmod := Nat.div_add_mod' p.frameBufferHeight (p.font.rowsPerEntry * p.font.scaleFactor)
    have hlt := Nat.mod_lt p.frameBufferHeight (Nat.mul_pos h.rows h.scale)
    rw [textLines] at hin
    omega
  · intro hline q hq
    obtain ⟨row, hrow, bit, hbit, scalarY, hy, scalarX, hx, rfl⟩ := mem_glyphPositions.mp hq
    refine ⟨?_, pixel_column h hon (h.columns ▸ hbit) hx⟩
    rw [pixel_row h hon hrow hy]
    exact cell_within hline (Nat.div_mul_le_self _ _) (cell_lt hrow hy)

theorem fillsLine_iff (h : RoomyScreen p) (hon : OnScreen p) :
    FillsLine p ↔ lineColumns p ≤ p.cursorX + 1 := by
  have hle : lineColumns p ≤ p.frameBufferWidth := Nat.div_le_self _ _
  have := h.width_small
  have := hon.column
  rw [FillsLine, h.cellWidth_eq, wrap32_of_lt (by omega), lineColumns]

theorem behindLast_iff (h : RoomyScreen p) (hon : OnScreen p) :
    BehindLast p ↔ p.cursorY = textLines p := by
  have hle : textLines p ≤ p.frameBufferHeight := Nat.div_le_self _ _
  have := h.height_small
  have := hon.line
  rw [BehindLast, h.cellHeight_eq, wrap32_of_lt (by omega)]
  change textLines p < _ ↔ _
  omega

theorem breakLine_eq (h : RoomyScreen p) (hon : OnScreen p) :
    breakLine p = place p 0 (textLines p - (textLines p - p.cursorY - 1)) := by
  have hle : textLines p ≤ p.frameBufferHeight := Nat.div_le_self _ _
  have hlast := behindLast_iff h hon
  have := h.height_small
  have := hon.line
  have hwrap : wrap32 (p.cursorY + 1) = p.cursorY + 1 := wrap32_of_lt (by omega)
  have hlines : (if BehindLast p then p.cursorY + 1 - 1 else p.cursorY + 1) =
      textLines p - (textLines p - p.cursorY - 1) := by
    by_cases hb : BehindLast p
    · have := hlast.mp hb
      rw [if_pos hb]
      omega
    · have : p.cursorY ≠ textLines p := fun heq => hb (hlast.mpr heq)
      rw [if_neg hb]
      omega
  rw [breakLine, hwrap, hlines, place]

theorem cursorAfter_eq (h : RoomyScreen p) (hon : OnScreen p) (hshown : Shown p c) :
    cursorAfter p c =
      if c = ch '\n' ∨ lineColumns p ≤ p.cursorX + 1 then
        place p 0 (textLines p - (textLines p - p.cursorY - 1))
      else place p (p.cursorX + 1) p.cursorY := by
  rw [cursorAfter, if_neg (not_not_intro hshown), breakLine_eq h hon]
  by_cases hnewline : c = ch '\n'
  · rw [if_pos hnewline, if_pos (Or.inl hnewline)]
  · rw [if_neg hnewline]
    by_cases hfills : FillsLine p
    · rw [if_pos hfills, if_pos (Or.inr ((fillsLine_iff h hon).mp hfills))]
    · have hright : ¬(c = ch '\n' ∨ lineColumns p ≤ p.cursorX + 1) := fun hor =>
        hor.elim hnewline fun hle => hfills ((fillsLine_iff h hon).mpr hle)
      have hle : lineColumns p ≤ p.frameBufferWidth := Nat.div_le_self _ _
      have := h.width_small
      have := hon.column
      rw [if_neg hfills, if_neg hright, stepRight, wrap32_of_lt (by omega)]
      rfl

theorem outUnlocked_spec (h : RoomyScreen s.protocol) (c : CHAR)
    (foregroundColor backgroundColor : Nat) :
    ∃ s', outCharacterWith scrollUnlocked s c foregroundColor backgroundColor = .ok s' ∧
      s'.protocol = cursorAfter s.protocol c ∧
      positions s' = positions s ++
        if Shown s.protocol c ∧ c ≠ ch '\n' then glyphPositions s.protocol else [] := by
  by_cases hshown : Shown s.protocol c
  · by_cases hnewline : c = ch '\n'
    · obtain ⟨s', hnext, hp, _, hstores⟩ := nextLine_spec s h.cellHeight_ne
      rw [outCharacterWith, if_neg (not_not_intro hshown), if_pos hnewline, cursorAfter,
        if_neg (not_not_intro hshown), if_pos hnewline]
      refine ⟨s', hnext, hp, ?_⟩
      rw [if_neg fun hb => hb.2 hnewline, List.append_nil, positions, hstores, positions]
    · obtain ⟨x, hp, _, hpos, hout⟩ := outCharacterWith_drawn scrollUnlocked hshown hnewline
        foregroundColor backgroundColor
      have hdraws : Shown s.protocol c ∧ c ≠ ch '\n' := ⟨hshown, hnewline⟩
      rw [hout, if_neg h.cellWidth_ne, if_pos hdraws, cursorAfter,
        if_neg (not_not_intro hshown), if_neg hnewline]
      by_cases hfills : FillsLine s.protocol
      · have hcell : cellHeight x.protocol ≠ 0 := by
          rw [hp]
          exact h.cellHeight_ne
        obtain ⟨s', hnext, hp', _, hstores⟩ := nextLine_spec x hcell
        rw [if_pos hfills, if_pos hfills]
        refine ⟨s', hnext, hp'.trans (by rw [hp]; rfl), ?_⟩
        rw [positions, hstores]
        exact hpos
      · rw [if_neg hfills, if_neg hfills]
        exact ⟨x, rfl, hp, hpos⟩
  · rw [outCharacterWith, if_pos hshown, cursorAfter, if_pos hshown]
    refine ⟨s, rfl, rfl, ?_⟩
    rw [if_neg fun hb => hshown hb.1, List.append_nil]

theorem cursorAfter_onScreen (h : RoomyScreen p) (hon : OnScreen p) (c : CHAR) :
    OnScreen (cursorAfter p c) := by
  by_cases hshown : Shown p c
  · rw [cursorAfter_eq h hon hshown]
    split
    · exact ⟨h.columns_pos, Nat.sub_le _ _⟩
    · rename_i hright
      exact ⟨Nat.lt_of_not_le fun hle => hright (Or.inr hle), hon.line⟩
  · rw [cursorAfter, if_pos hshown]
    exact hon

theorem shown_inFrame (h : RoomyScreen p) (hon : OnScreen p) (hshown : Shown p c) :
    (∀ q ∈ (if Shown p c ∧ c ≠ ch '\n' then glyphPositions p else []),
      q.1 < p.frameBufferHeight ∧ q.2 < p.frameBufferWidth) ↔
      (c ≠ ch '\n' → 0 < textLines p - p.cursorY) := by
  by_cases hnewline : c = ch '\n'
  · rw [if_neg fun hb => hb.2 hnewline]
    exact ⟨fun _ hne => absurd hnewline hne, fun _ q hq => absurd hq List.not_mem_nil⟩
  · have hdraws : Shown p c ∧ c ≠ ch '\n' := ⟨hshown, hnewline⟩
    rw [if_pos hdraws, glyph_inFrame h hon]
    exact ⟨fun hlt _ => Nat.sub_pos_of_lt hlt, fun hlt => Nat.lt_of_sub_pos (hlt hnewline)⟩

/-- All pixels of a run are inside the frame buffer exactly if the text fits the lines left. -/
theorem printUnlocked_spec (h : RoomyScreen p) (prints : List (CHAR × Nat × Nat))
    (hplace : s.protocol = place p x y) (hon : OnScreen s.protocol) :
    ∃ s' l, printUnlocked s prints = .ok s' ∧ positions s' = positions s ++ l ∧
      ((∀ q ∈ l, q.1 < p.frameBufferHeight ∧ q.2 < p.frameBufferWidth) ↔
        FitsLines (lineColumns p) (textLines p - y) x (shownText p prints)) := by
  induction prints generalizing s x y with
  | nil =>
    refine ⟨s, [], rfl, (List.append_nil _).symm, fun _ => fitsLines_nil, fun _ q hq => ?_⟩
    exact absurd hq List.not_mem_nil
  | cons e prints ih =>
    obtain ⟨c, fg, bg⟩ := e
    have hroomy : RoomyScreen s.protocol := hplace ▸ h.place x y
    obtain ⟨s₁, hout, hp, hpos⟩ := outUnlocked_spec hroomy c fg bg
    have hon₁ : OnScreen s₁.protocol := hp ▸ cursorAfter_onScreen hroomy hon c
    rw [hplace] at hroomy hon hp hpos
    have hrun : ∀ s', printUnlocked s₁ prints = .ok s' →
        printUnlocked s ((c, fg, bg) :: prints) = .ok s' := fun s' hrest => by
      rw [printUnlocked, List.foldlM_cons, hout]
      exact hrest
    by_cases hshown : Shown p c
    · have htext : shownText p ((c, fg, bg) :: prints) = c :: shownText p prints := by
        rw [shownText, List.map_cons, List.filter_cons_of_pos (by simpa using hshown), shownText]
      have hfirst := shown_inFrame hroomy hon hshown
      rw [cursorAfter_eq hroomy hon hshown] at hp
      rw [htext, fitsLines_cons]
      by_cases hbreak : c = ch '\n' ∨ lineColumns p ≤ x + 1
      · have hmoved : s₁.protocol = place p 0 (textLines p - (textLines p - y - 1)) :=
          hp.trans (if_pos hbreak)
        obtain ⟨s', l, hrest, hpos', hiff⟩ := ih hmoved hon₁
        refine ⟨s', _, hrun s' hrest, by rw [hpos', hpos, List.append_assoc], ?_⟩
        have hleft : textLines p - (textLines p - (textLines p - y - 1)) = textLines p - y - 1 := by
          omega
        rw [hleft] at hiff
        rw [if_pos hbreak, ← hiff, List.forall_mem_append]
        exact and_congr_left fun _ => hfirst
      · have hmoved : s₁.protocol = place p (x + 1) y := hp.trans (if_neg hbreak)
        obtain ⟨s', l, hrest, hpos', hiff⟩ := ih hmoved hon₁
        refine ⟨s', _, hrun s' hrest, by rw [hpos', hpos, List.append_assoc], ?_⟩
        rw [if_neg hbreak, ← hiff, List.forall_mem_append]
        exact and_congr_left fun _ => hfirst
    · have htext : shownText p ((c, fg, bg) :: prints) = shownText p prints := by
        rw [shownText, List.map_cons, List.filter_cons_of_neg (by simpa using hshown), shownText]
      have hhidden : ¬Shown (place p x y) c := hshown
      rw [cursorAfter, if_pos hhidden] at hp
      rw [if_neg fun hb => hhidden hb.1, List.append_nil] at hpos
      obtain ⟨s', l, hrest, hpos', hiff⟩ := ih hp hon₁
      exact ⟨s', l, hrun s' hrest, by rw [hpos', hpos], htext ▸ hiff⟩

theorem krdwtpResetState_ok {clearColor : Nat} (h : krdwtpResetState s clearColor = .ok s') :
    s'.protocol = place s.protocol 0 0 ∧ s'.stores = s.stores := by
  rw [krdwtpResetState, acquireDwtp] at h
  cases hlock : CPU.acquireOrWaitSpinlock s.cpu sg_DwtpSpinlock with
  | none =>
    rw [hlock] at h
    cases h
  | some cpu =>
    rw [hlock] at h
    cases h
    exact ⟨rfl, rfl⟩

theorem printUnlocked_start (h : RoomyScreen p) (hplace : s.protocol = place p 0 0)
    (hstores : s.stores = []) (prints : List (CHAR × Nat × Nat)) :
    ∃ x, printUnlocked s prints = .ok x ∧
      ((∀ e ∈ x.stores, InFrame p e) ↔
        FitsLines (lineColumns p) (textLines p) 0 (shownText p prints)) := by
  have hon : OnScreen s.protocol := by
    rw [hplace]
    exact ⟨h.columns_pos, Nat.zero_le _⟩
  obtain ⟨x, l, hprint, hpos, hiff⟩ := printUnlocked_spec h prints hplace hon
  refine ⟨x, hprint, ?_⟩
  rw [← Nat.sub_zero (textLines p), ← hiff]
  have hl : x.stores.map (fun e => (e.row, e.column)) = l := by
    rw [positions, positions, hstores] at hpos
    exact hpos
  rw [← hl, List.forall_mem_map]
  rfl

/-- After a reset, every pixel of what is printed is inside the frame buffer exactly if each glyph
comes after fewer line breaks than the screen has lines. -/
theorem printed_inFrame {clearColor : Nat} (h : RoomyScreen s.protocol) (hstores : s.stores = [])
    (hreset : krdwtpResetState s clearColor = .ok s') (prints : List (CHAR × Nat × Nat)) :
    ∃ x, printUnlocked s' prints = .ok x ∧
      ((∀ e ∈ x.stores, InFrame s.protocol e) ↔
        FitsLines (lineColumns s.protocol) (textLines s.protocol) 0
          (shownText s.protocol prints)) := by
  obtain ⟨hplace, hkept⟩ := krdwtpResetState_ok hreset
  exact printUnlocked_start h hplace (hkept.trans hstores) prints

theorem fullScreen_roomy : RoomyScreen fullScreen.protocol where
  stride := by decide
  size := by decide
  size32 := by decide
  columns := rfl
  rows := by decide
  scale := by decide
  width := by decide
  height := by decide

def wrapsAndScrolls : List (CHAR × Nat × Nat) :=
  List.replicate 81 (ch 'a', 1, 0) ++ List.replicate 26 (ch '\n', 1, 0)

theorem printed_inFrame_fullScreen :
    ∃ s', krdwtpResetState fullScreen 0 = .ok s' ∧
      ∃ x, printUnlocked s' wrapsAndScrolls = .ok x ∧
        ∀ e ∈ x.stores, InFrame fullScreen.protocol e := by
  obtain ⟨s', hreset⟩ : ∃ s', krdwtpResetState fullScreen 0 = .ok s' := ⟨_, rfl⟩
  obtain ⟨x, hprint, hiff⟩ := printed_inFrame fullScreen_roomy rfl hreset wrapsAndScrolls
  exact ⟨s', hreset, x, hprint, hiff.mpr (by decide +kernel)⟩

def pastLastLine : List (CHAR × Nat × Nat) :=
  List.replicate 25 (ch '\n', 1, 0) ++ [(ch 'a', 1, 0)]

/-- The character is drawn below the last line. -/
theorem pastLastLine_outside :
    ¬ ∀ (s s' : DwtpSystem) (clearColor : Nat) (prints : List (CHAR × Nat × Nat)),
      RoomyScreen s.protocol → s.stores = [] → krdwtpResetState s clearColor = .ok s' →
      (∀ e ∈ prints, 0 ≤ e.1.toInt) →
      ∃ x, printUnlocked s' prints = .ok x ∧ ∀ e ∈ x.stores, InFrame s.protocol e := by
  intro hall
  obtain ⟨s', hreset⟩ : ∃ s', krdwtpResetState fullScreen 0 = .ok s' := ⟨_, rfl⟩
  obtain ⟨hplace, hkept⟩ := krdwtpResetState_ok hreset
  obtain ⟨x, hprint, hin⟩ := hall fullScreen s' 0 pastLastLine fullScreen_roomy rfl hreset
    (by decide)
  obtain ⟨x', hprint', hiff⟩ := printUnlocked_start fullScreen_roomy hplace hkept pastLastLine
  rw [hprint, Except.ok.injEq] at hprint'
  subst hprint'
  have hfits := hiff.mp hin (List.replicate 25 (ch '\n')) (ch 'a') [] (by decide) (by decide)
  exact absurd hfits (by decide)

end Ych.Dwtp
