import Ych.Base.Typesetting
import Ych.Earlyvideo.TextLock
import Ych.Earlyvideo.TextPixels
import Ych.Memory.BootstrapArena

/-! What is seen of the text: the frame buffer as the end of an endless sheet of paper. -/
namespace Ych.Dwtp
open Words Bitmap ByteMemory ByteFiles Raster Typesetting CPU Krnlstring BootstrapArena

variable {p : KrDisplaywideTextProtocolState} {s s₀ s' : DwtpSystem} {m m' : Bytes} {c : CHAR}
  {mode : Bool} {foregroundColor backgroundColor x y k j r i : Nat} {h : ScreenMemory p}
  {P : Paper Tile} {blank : Nat → Nat → Tile}

/-! Scrolling. -/

theorem lines_mul_lineBytes (p : KrDisplaywideTextProtocolState) (n : Nat) :
    n * lineBytes p = 4 * (n * lineHeight p * p.pixelsPerScanLine) := by
  rw [lineBytes, Nat.mul_left_comm, ← Nat.mul_assoc n]

theorem next_lineBytes (p : KrDisplaywideTextProtocolState) :
    (textLines p + 1) * lineBytes p + lineBytes p = (textLines p + 2) * lineBytes p :=
  (Nat.succ_mul _ _).symm

theorem ram_lines_le (h : ScreenMemory p) :
    (textLines p + 2) * lineBytes p ≤ 2 * p.frameBufferSize := by
  rw [lines_mul_lineBytes]
  exact h.ram_fits

theorem logicalStride_eq (h : ScreenMemory p) :
    wrap32 (wrap32 (p.font.rowsPerEntry * p.font.scaleFactor) *
      wrap32 (p.pixelsPerScanLine * p.bytesPerPixel)) = lineBytes p := by
  have hline : lineHeight p * (p.pixelsPerScanLine * 4) = lineBytes p := by
    rw [lineBytes, Nat.mul_comm 4, Nat.mul_assoc]
  have hextent := h.frame_extent
  have hheight := h.roomy.height_small
  have hcell := h.roomy.height
  have hpos := lineHeight_pos h.roomy
  have hrow : p.pixelsPerScanLine * 4 ≤ lineBytes p := by
    rw [← hline]
    exact Nat.le_mul_of_pos_left _ hpos
  rw [h.bytesPerPixel, wrap32_of_lt (show p.pixelsPerScanLine * 4 < 2 ^ 32 by omega),
    wrap32_of_lt (show p.font.rowsPerEntry * p.font.scaleFactor < 2 ^ 32 by omega)]
  change wrap32 (lineHeight p * (p.pixelsPerScanLine * 4)) = _
  rw [hline, wrap32_of_lt (by omega)]

theorem scroll_memory (h : ScreenMemory p)
    (hs : s.protocol = typing p mode 0 (textLines p + 1)) :
    (krdwtpScroll_NoSpin s).memory =
      moveBuffer (fill (moveBuffer s.memory h.ram.base (h.ram.base + lineBytes p)
        ((textLines p + 1) * lineBytes p))
        (h.ram.base + (textLines p + 1) * lineBytes p) (lineBytes p) 0#8)
      h.frame.base h.ram.base p.frameBufferSize := by
  have hlines := ram_lines_le h
  have hsize := h.ramSize
  have hstop := h.ramStop
  have hnext := next_lineBytes p
  have hne : s.protocol.cursorY ≠ 0 := by
    rw [hs]
    exact Nat.succ_ne_zero _
  rw [krdwtpScroll_NoSpin, if_neg hne, hs]
  change moveBuffer (fill (moveBuffer s.memory p.addrRamFrameBuffer
    (wrap64 (p.addrRamFrameBuffer + wrap32 (wrap32 (p.font.rowsPerEntry * p.font.scaleFactor) *
      wrap32 (p.pixelsPerScanLine * p.bytesPerPixel))))
    (wrap32 ((textLines p + 1) * wrap32 (wrap32 (p.font.rowsPerEntry * p.font.scaleFactor) *
      wrap32 (p.pixelsPerScanLine * p.bytesPerPixel)))))
    (wrap64 (p.addrRamFrameBuffer + wrap32 ((textLines p + 1) *
      wrap32 (wrap32 (p.font.rowsPerEntry * p.font.scaleFactor) *
        wrap32 (p.pixelsPerScanLine * p.bytesPerPixel)))))
    (wrap32 (wrap32 (p.font.rowsPerEntry * p.font.scaleFactor) *
      wrap32 (p.pixelsPerScanLine * p.bytesPerPixel))) 0#8)
    p.addrFrameBuffer p.addrRamFrameBuffer p.frameBufferSize = _
  rw [logicalStride_eq h,
    wrap32_of_lt (show (textLines p + 1) * lineBytes p < 2 ^ 32 by omega),
    wrap64_of_lt (show p.addrRamFrameBuffer + lineBytes p < 2 ^ 64 by omega),
    wrap64_of_lt (show p.addrRamFrameBuffer + (textLines p + 1) * lineBytes p < 2 ^ 64 by omega)]
  rfl

theorem copied_moveBuffer (m : Bytes) (dest src n : Nat) :
    Copied m src (moveBuffer m dest src n) dest n := by
  intro i hi
  rw [moveBuffer, if_pos (by omega), Nat.add_sub_cancel_left]

theorem sameOn_moveBuffer {dest src n a b : Nat} (hout : b ≤ dest ∨ dest + n ≤ a) :
    SameOn m (moveBuffer m dest src n) a b := by
  intro i hlow hhigh
  rw [moveBuffer, if_neg (by omega)]

theorem sameOn_fill {p n a b : Nat} {v : Byte} (hout : b ≤ p ∨ p + n ≤ a) :
    SameOn m (fill m p n v) a b := by
  intro i hlow hhigh
  rw [fill, if_neg (by omega)]

/-- All lines have moved up by one, the last one is blank, and the frame buffer shows them. -/
structure Scrolled (h : ScreenMemory p) (m m' : Bytes) : Prop where
  moved : ∀ row column, row < (textLines p + 1) * lineHeight p → column < p.pixelsPerScanLine →
    h.ram.pixel m' row column = h.ram.pixel m (row + lineHeight p) column
  cleared : ∀ row column, row < lineHeight p → column < p.pixelsPerScanLine →
    h.ram.pixel m' ((textLines p + 1) * lineHeight p + row) column = 0
  mirrored : ∀ row column, row < p.frameBufferHeight → column < p.pixelsPerScanLine →
    h.frame.pixel m' row column = h.ram.pixel m' row column
  font : SameFont p m m'

theorem scrolled_memory (h : ScreenMemory p) (m : Bytes) :
    Scrolled h m (moveBuffer (fill (moveBuffer m h.ram.base (h.ram.base + lineBytes p)
        ((textLines p + 1) * lineBytes p))
        (h.ram.base + (textLines p + 1) * lineBytes p) (lineBytes p) 0#8)
      h.frame.base h.ram.base p.frameBufferSize) := by
  let moved := moveBuffer m h.ram.base (h.ram.base + lineBytes p)
    ((textLines p + 1) * lineBytes p)
  let cleared := fill moved (h.ram.base + (textLines p + 1) * lineBytes p) (lineBytes p) 0#8
  have hlines := ram_lines_le h
  have hnext := next_lineBytes p
  have hram : h.ram.stop = h.ram.base + 2 * p.frameBufferSize := rfl
  have hframe : h.frame.stop = h.frame.base + (p.frameBufferSize + lineBytes p) := rfl
  have hapart : h.ram.stop ≤ h.frame.base ∨ h.frame.stop ≤ h.ram.base := h.ram_apart_frame
  have hcopy : ∀ a b, b ≤ h.frame.base ∨ h.frame.stop ≤ a →
      SameOn cleared (moveBuffer cleared h.frame.base h.ram.base p.frameBufferSize) a b :=
    fun a b hout => sameOn_moveBuffer (by omega)
  have hkept : ∀ a b, h.ram.base ≤ a → b ≤ h.ram.stop →
      SameOn cleared (moveBuffer cleared h.frame.base h.ram.base p.frameBufferSize) a b :=
    fun a b ha hb => hcopy a b (by omega)
  refine ⟨fun row column hr hc => ?_, fun row column hr hc => ?_, fun row column hr hc => ?_, ?_⟩
  · have hcopied : Copied m (h.ram.address (lineHeight p) 0) cleared h.ram.base
        ((textLines p + 1) * lineBytes p) :=
      (copied_moveBuffer m _ _ _).keep (sameOn_fill (by omega))
    have hindex := index_lt hr hc
    have hbytes := lines_mul_lineBytes p (textLines p + 1)
    refine pixel_copied rfl (hcopied.keep (hkept _ _ (by omega) (by omega))) ?_
    change 4 * (row * p.pixelsPerScanLine + column) + 4 ≤ _
    omega
  · have hindex := index_lt hr hc
    have hbytes := lines_mul_lineBytes p (textLines p + 1)
    have hline : lineBytes p = 4 * (lineHeight p * p.pixelsPerScanLine) := rfl
    have haddress : h.ram.address ((textLines p + 1) * lineHeight p + row) column =
        h.ram.base + (textLines p + 1) * lineBytes p +
          4 * (row * p.pixelsPerScanLine + column) := by
      change h.ram.base + 4 * (((textLines p + 1) * lineHeight p + row) * p.pixelsPerScanLine +
        column) = _
      rw [Nat.add_mul _ row]
      omega
    rw [Surface.pixel, haddress]
    refine load_zeros fun k hk => ?_
    have hin : h.ram.base + (textLines p + 1) * lineBytes p ≤ h.ram.base +
        (textLines p + 1) * lineBytes p + 4 * (row * p.pixelsPerScanLine + column) + k := by omega
    rw [hkept _ (h.ram.base + (textLines p + 2) * lineBytes p) (by omega) (by omega) _ hin
      (by omega)]
    exact if_pos (by omega)
  · have hsize := h.roomy.size
    have hindex := index_lt hr hc
    have hcopied := copied_moveBuffer cleared h.frame.base h.ram.base p.frameBufferSize
    have hrow : row < h.ram.rows :=
      ScreenMemory.row_in_ram (hr.trans (lt_textLines_mul h.roomy))
    have hload := hcopied.load_at (k := 4 * (row * p.pixelsPerScanLine + column)) (w := 4)
      (by omega)
    exact hload.trans (pixel_congr (hkept _ _ le_rfl le_rfl) hrow hc).symm
  · have hfontRam := h.fontApartRam
    have hfontFrame := h.fontApartFrame
    have hbase : h.ram.base = p.addrRamFrameBuffer := rfl
    have hframeBase : h.frame.base = p.addrFrameBuffer := rfl
    have hmoved : SameFont p m moved := sameOn_moveBuffer (by omega)
    have hcleared : SameFont p moved cleared := sameOn_fill (by omega)
    exact (SameOn.trans hmoved hcleared).trans (hcopy _ _ (by omega))

/-! The screen and the paper. -/

section Screen
variable {h : ScreenMemory s₀.protocol}

/-- The buffer in RAM holds the paper's last lines and one more below them, in glyphs as they were
drawn at the start, and the frame buffer shows what of it is on the screen. -/
structure Pictured (h : ScreenMemory s₀.protocol) (blank : Nat → Nat → Tile) (s : DwtpSystem)
    (P : Paper Tile) : Prop where
  bMeltdown : s.bMeltdown = s₀.bMeltdown
  font : SameFont s₀.protocol s₀.memory s.memory
  fresh : P.Fresh blank
  cells : ∀ k j r i, k ≤ textLines s₀.protocol + 1 → j < lineColumns s₀.protocol →
    r < lineHeight s₀.protocol → i < columnWidth s₀.protocol →
    h.ram.pixel s.memory (k * lineHeight s₀.protocol + r) (j * columnWidth s₀.protocol + i) =
      P.window (textLines s₀.protocol) k j r i
  mirrored : ∀ row column, row < s₀.protocol.frameBufferHeight →
    column < s₀.protocol.frameBufferWidth →
    h.frame.pixel s.memory row column = h.ram.pixel s.memory row column

structure Shows (h : ScreenMemory s₀.protocol) (blank : Nat → Nat → Tile) (mode : Bool)
    (s : DwtpSystem) (P : Paper Tile) : Prop extends Pictured h blank s P where
  protocol : s.protocol =
    typing s₀.protocol mode P.column (min P.line (textLines s₀.protocol))
  column : P.column < lineColumns s₀.protocol

def BlankBelow (p : KrDisplaywideTextProtocolState) (blank : Nat → Nat → Tile) : Prop :=
  ∀ k j r i, textLines p < k → blank k j r i = 0

theorem cell_in_ram (h : ScreenMemory p) (hk : k ≤ textLines p + 1) (hj : j < lineColumns p)
    (hr : r < lineHeight p) (hi : i < columnWidth p) :
    k * lineHeight p + r < (textLines p + 2) * lineHeight p ∧
      j * columnWidth p + i < p.pixelsPerScanLine := by
  have hlimit : lineColumns p * columnWidth p ≤ p.frameBufferWidth := Nat.div_mul_le_self _ _
  have hstride := h.roomy.stride
  exact ⟨index_lt (Nat.lt_succ_of_le hk) hr, (cell_within hj hlimit hi).trans_le hstride⟩

theorem Pictured.set (hs : Pictured h blank s P)
    (hprotocol : s.protocol =
      typing s₀.protocol mode P.column (min P.line (textLines s₀.protocol)))
    (hcolumn : P.column < lineColumns s₀.protocol) (hc : Ascii c)
    (foregroundColor backgroundColor : Nat) :
    Pictured h blank (drawGlyph s c foregroundColor backgroundColor)
      (P.set (glyphTile s₀ c foregroundColor backgroundColor)) := by
  have hline : min P.line (textLines s₀.protocol) ≤ textLines s₀.protocol := min_le_right _ _
  obtain ⟨hsame, hcpu, hmeltdown, hmemory⟩ :=
    drawGlyph_paints h foregroundColor backgroundColor hprotocol hcolumn hline hc
  have hfont : s.protocol.font = s₀.protocol.font := by rw [hprotocol]; rfl
  have hscale : s.protocol.font.scaleFactor = s₀.protocol.font.scaleFactor := congrArg _ hfont
  refine ⟨hmeltdown.trans hs.bMeltdown, SameOn.trans hs.font (Painted.sameFont hmemory),
    hs.fresh.set _, fun k j r i hk hj hr hi => ?_, fun row column hr hc => ?_⟩
  · obtain ⟨hrow, hcol⟩ := cell_in_ram h hk hj hr hi
    rw [hmemory.first _ _ hrow hcol, Paper.window_set]
    by_cases hcell : k = min P.line (textLines s₀.protocol) ∧ j = P.column
    · rw [if_pos hcell, hcell.1, hcell.2,
        repainted_glyph h.roomy hprotocol hcolumn hline hr hi, glyphTile, glyphTile, hscale]
      have hbit : i / s₀.protocol.font.scaleFactor < s₀.protocol.font.columnsPerEntry :=
        Nat.div_lt_of_lt_mul (by rw [Nat.mul_comm]; exact hi)
      have hbitRow : r / s₀.protocol.font.scaleFactor < s₀.protocol.font.rowsPerEntry :=
        Nat.div_lt_of_lt_mul (by rw [Nat.mul_comm]; exact hr)
      rw [bitColor_congr h foregroundColor backgroundColor hfont rfl hs.bMeltdown hs.font hc hbitRow
        hbit]
    · rw [if_neg hcell, repainted_other h.roomy hprotocol hcolumn hline hr hi hcell]
      exact hs.cells k j r i hk hj hr hi
  · have hcol : column < s₀.protocol.pixelsPerScanLine := hc.trans_le h.roomy.stride
    have hframe := hr.trans (lt_textLines_mul h.roomy)
    rw [hmemory.first _ _ (ScreenMemory.row_in_ram hframe) hcol,
      hmemory.second _ _ hframe hcol, hs.mirrored row column hr hc]

theorem Pictured.newline (hs : Pictured h blank s P) (hstill : P.line < textLines s₀.protocol) :
    Pictured h blank s P.newline := by
  refine ⟨hs.bMeltdown, hs.font, hs.fresh.newline, ?_, hs.mirrored⟩
  rw [Paper.window_newline hstill]
  exact hs.cells

theorem Pictured.scrolled (hs : Pictured h blank s P) (hend : textLines s₀.protocol ≤ P.line)
    (hblank : BlankBelow s₀.protocol blank) (hscrolled : Scrolled h s.memory s'.memory)
    (hmeltdown : s'.bMeltdown = s.bMeltdown) : Pictured h blank s' P.newline := by
  refine ⟨hmeltdown.trans hs.bMeltdown, SameOn.trans hs.font hscrolled.font, hs.fresh.newline,
    fun k j r i hk hj hr hi => ?_, fun row column hr hc => ?_⟩
  · obtain ⟨_, hcol⟩ := cell_in_ram h hk hj hr hi
    by_cases hlast : k = textLines s₀.protocol + 1
    · have hbelow : min P.newline.line (textLines s₀.protocol) < k := by
        rw [hlast]
        exact Nat.lt_succ_of_le (min_le_right _ _)
      rw [hs.fresh.newline.window hbelow, hblank _ _ _ _ (by omega), hlast]
      exact hscrolled.cleared r _ hr hcol
    · have hrow : (k * lineHeight s₀.protocol + r) + lineHeight s₀.protocol =
          (k + 1) * lineHeight s₀.protocol + r := by
        rw [Nat.succ_mul]
        omega
      have hin : k * lineHeight s₀.protocol + r <
          (textLines s₀.protocol + 1) * lineHeight s₀.protocol := index_lt (by omega) hr
      rw [hscrolled.moved _ _ hin hcol, hrow, Paper.window_scrolled hend]
      exact hs.cells (k + 1) j r i (by omega) hj hr hi
  · exact hscrolled.mirrored row column hr (hc.trans_le h.roomy.stride)

/-! Characters. -/

theorem Pictured.congr (hs : Pictured h blank s P) (hmemory : s'.memory = s.memory)
    (hmeltdown : s'.bMeltdown = s.bMeltdown) : Pictured h blank s' P := by
  obtain ⟨hkept, hfont, hfresh, hcells, hmirrored⟩ := hs
  rw [← hmemory] at hfont hcells hmirrored
  exact ⟨hmeltdown.trans hkept, hfont, hfresh, hcells, hmirrored⟩

def lineDown (s : DwtpSystem) : DwtpSystem := s.setCursor 0 (wrap32 (s.protocol.cursorY + 1))

theorem nextLine_shows (hs : Pictured h blank s P)
    (hprotocol : s.protocol = typing s₀.protocol mode x (min P.line (textLines s₀.protocol)))
    (scroll : DwtpSystem → Except Stop DwtpSystem) :
    (P.line < textLines s₀.protocol ∧ nextLine scroll s = .ok (lineDown s) ∧
      Shows h blank mode (lineDown s) P.newline) ∨
    (textLines s₀.protocol ≤ P.line ∧ nextLine scroll s = scroll (lineDown s) ∧
      (lineDown s).protocol = typing s₀.protocol mode 0 (textLines s₀.protocol + 1)) := by
  have hroomy := h.roomy.typing mode x (min P.line (textLines s₀.protocol))
  have hheight : textLines s₀.protocol ≤ s₀.protocol.frameBufferHeight := Nat.div_le_self _ _
  have hsmall := h.roomy.height_small
  have hcell : cellHeight s.protocol ≠ 0 := by
    rw [hprotocol]
    exact hroomy.cellHeight_ne
  have hwrap : wrap32 (min P.line (textLines s₀.protocol) + 1) =
      min P.line (textLines s₀.protocol) + 1 := wrap32_of_lt (by omega)
  have hdown : (lineDown s).protocol =
      typing s₀.protocol mode 0 (min P.line (textLines s₀.protocol) + 1) := by
    rw [← hwrap]
    change { s.protocol with cursorX := 0, cursorY := wrap32 (s.protocol.cursorY + 1) } = _
    rw [hprotocol]
    rfl
  have hbehind : BehindLast s.protocol ↔ textLines s₀.protocol ≤ P.line := by
    rw [hprotocol, BehindLast, hroomy.cellHeight_eq]
    change textLines s₀.protocol < wrap32 (min P.line (textLines s₀.protocol) + 1) ↔ _
    rw [hwrap]
    omega
  rw [nextLine_eq scroll s hcell]
  by_cases hend : textLines s₀.protocol ≤ P.line
  · right
    rw [min_eq_right hend] at hdown
    exact ⟨hend, if_pos (hbehind.mpr hend), hdown⟩
  · have hstill := Nat.lt_of_not_le hend
    have hline : min P.line (textLines s₀.protocol) + 1 =
        min P.newline.line (textLines s₀.protocol) := by
      change _ = min (P.line + 1) _
      omega
    left
    rw [hline] at hdown
    exact ⟨hstill, if_neg fun hb => hend (hbehind.mp hb), ⟨(hs.newline hstill).congr rfl rfl, hdown,
      h.roomy.columns_pos⟩⟩

theorem newline_shows (hs : Shows h blank mode s P) (hblank : BlankBelow s₀.protocol blank) :
    ∃ s', nextLine (fun s => .ok (krdwtpScroll_NoSpin s)) s = .ok s' ∧ s'.cpu = s.cpu ∧
      Shows h blank mode s' P.newline := by
  obtain ⟨hstill, hnext, hshows⟩ | ⟨hend, hnext, hdown⟩ :=
    nextLine_shows hs.toPictured hs.protocol (fun s => .ok (krdwtpScroll_NoSpin s))
  · exact ⟨_, hnext, rfl, hshows⟩
  · have hscrolled : Scrolled h s.memory (krdwtpScroll_NoSpin (lineDown s)).memory := by
      rw [scroll_memory h hdown]
      exact scrolled_memory h _
    have hne : (lineDown s).protocol.cursorY ≠ 0 := by
      rw [hdown]
      exact Nat.succ_ne_zero _
    have hmeltdown : (krdwtpScroll_NoSpin (lineDown s)).bMeltdown = s.bMeltdown := by
      rw [krdwtpScroll_NoSpin, if_neg hne]
      rfl
    have hline : min P.newline.line (textLines s₀.protocol) = textLines s₀.protocol :=
      min_eq_right (Nat.le_succ_of_le hend)
    refine ⟨_, hnext, scroll_cpu _, hs.toPictured.scrolled hend hblank hscrolled hmeltdown, ?_,
      h.roomy.columns_pos⟩
    rw [scroll_protocol hne, hdown, hline]
    rfl

def charMarks (s₀ : DwtpSystem) (mode : Bool) (e : CHAR × Nat × Nat) : List (Mark Tile) :=
  if ¬ Shown s₀.protocol e.1 then []
  else if e.1 = ch '\n' then [.newline]
  else [.glyph (glyphTile s₀ (toUpper (typing s₀.protocol mode 0 0) e.1) e.2.1 e.2.2)]

theorem toUpper_ascii (hc : Ascii c) : Ascii (toUpper p c) := by
  rw [toUpper]
  split
  · rename_i hlower
    have hall : ∀ d : CHAR, Ascii d → (ch 'a').sle d → Ascii (d - (ch 'a' - ch 'A')) := by
      unfold Ascii
      decide
    exact hall c hc hlower.2.1
  · exact hc

/-- The call is as the paper says: it returns and shows what is set, or waits for the lock because
a line fills up where the screen ends. -/
def ShowsNext (h : ScreenMemory s₀.protocol) (blank : Nat → Nat → Tile) (mode : Bool)
    (s : DwtpSystem) (P : Paper Tile) (marks : List (Mark Tile)) (r : Except Stop DwtpSystem) :
    Prop :=
  (∃ s', r = .ok s' ∧ s'.cpu = s.cpu ∧
    Shows h blank mode s' (P.run (lineColumns s₀.protocol) marks) ∧
    P.Unwrapped (lineColumns s₀.protocol) (textLines s₀.protocol) marks) ∨
  (r = .error .spins ∧ ¬ P.Unwrapped (lineColumns s₀.protocol) (textLines s₀.protocol) marks)

theorem drawn_shows (hs : Shows h blank mode s P) (hc : Ascii c)
    (foregroundColor backgroundColor : Nat) :
    let x := drawGlyph s (toUpper s.protocol c) foregroundColor backgroundColor
    let s' := x.setCursor (wrap32 (x.protocol.cursorX + 1)) x.protocol.cursorY
    let tile := glyphTile s₀ (toUpper (typing s₀.protocol mode 0 0) c) foregroundColor
      backgroundColor
    Pictured h blank s' (P.set tile) ∧ s'.cpu = s.cpu ∧
      s'.protocol =
        typing s₀.protocol mode (P.column + 1) (min P.line (textLines s₀.protocol)) := by
  intro x s' tile
  have hupper : toUpper s.protocol c = toUpper (typing s₀.protocol mode 0 0) c := by
    rw [hs.protocol]
    rfl
  have hascii : Ascii (toUpper s.protocol c) := toUpper_ascii hc
  have hpaints := drawGlyph_paints h foregroundColor backgroundColor hs.protocol hs.column
    (min_le_right _ _) hascii
  have hpicture := hs.toPictured.set hs.protocol hs.column hascii foregroundColor backgroundColor
  have hwidth : lineColumns s₀.protocol ≤ s₀.protocol.frameBufferWidth := Nat.div_le_self _ _
  have hsmall := h.roomy.width_small
  have hcolumn := hs.column
  have hwrap : wrap32 (P.column + 1) = P.column + 1 := wrap32_of_lt (by omega)
  have hprotocol : x.protocol = typing s₀.protocol mode P.column
      (min P.line (textLines s₀.protocol)) := hpaints.protocol.trans hs.protocol
  rw [hupper] at hpicture
  refine ⟨hpicture.congr ?_ ?_, hpaints.cpu, ?_⟩
  · rw [← hupper]
    rfl
  · rw [← hupper]
    rfl
  · change { x.protocol with
      cursorX := wrap32 (x.protocol.cursorX + 1), cursorY := x.protocol.cursorY } = _
    rw [hprotocol, ← hwrap]
    rfl

theorem wrapped_shows {t : DwtpSystem} {tile : Tile} (ht : Pictured h blank t (P.set tile))
    (hcpu : t.cpu = s.cpu) (hprotocol : t.protocol =
      typing s₀.protocol mode (P.column + 1) (min P.line (textLines s₀.protocol)))
    (hheld : LockHeld s) :
    ShowsNext h blank mode s P [.glyph tile]
      (if cellWidth t.protocol = 0 then .error .divideError
      else if t.protocol.cursorX ≥ t.protocol.frameBufferWidth / cellWidth t.protocol then
        nextLine krdwtpScroll t
      else .ok t) := by
  have hroomy := h.roomy.typing mode (P.column + 1) (min P.line (textLines s₀.protocol))
  have hcell : cellWidth t.protocol ≠ 0 := by
    rw [hprotocol]
    exact hroomy.cellWidth_ne
  have hfull : t.protocol.cursorX ≥ t.protocol.frameBufferWidth / cellWidth t.protocol ↔
      lineColumns s₀.protocol ≤ P.column + 1 := by
    rw [hprotocol, hroomy.cellWidth_eq]
    rfl
  rw [if_neg hcell]
  by_cases hwraps : lineColumns s₀.protocol ≤ P.column + 1
  · have hset : P.run (lineColumns s₀.protocol) [.glyph tile] = (P.set tile).newline :=
      if_pos hwraps
    rw [if_pos (hfull.mpr hwraps)]
    obtain ⟨hstill, hnext, hshows⟩ | ⟨hend, hnext, hdown⟩ :=
      nextLine_shows ht hprotocol krdwtpScroll
    · refine Or.inl ⟨_, hnext, hcpu, ?_, fun hends => ?_, trivial⟩
      · rw [hset]
        exact hshows
      · exact absurd hstill (Nat.not_lt.mpr hends.2)
    · have hlock : LockHeld (lineDown t) := by
        rw [LockHeld, lineDown, DwtpSystem.setCursor, hcpu]
        exact hheld
      have hspins : krdwtpScroll (lineDown t) = .error .spins := by
        rw [krdwtpScroll, acquireDwtp_held hlock]
        rfl
      exact Or.inr ⟨hnext.trans hspins, fun hunwrapped => hunwrapped.1 ⟨hwraps, hend⟩⟩
  · have hset : P.run (lineColumns s₀.protocol) [.glyph tile] = P.set tile := if_neg hwraps
    rw [if_neg fun hb => hwraps (hfull.mp hb)]
    refine Or.inl ⟨t, rfl, hcpu, ?_, fun hends => hwraps hends.1, trivial⟩
    rw [hset]
    exact ⟨ht, hprotocol, Nat.lt_of_not_le hwraps⟩

theorem character_shows (hs : Shows h blank mode s P) (hblank : BlankBelow s₀.protocol blank)
    (hheld : LockHeld s) (hc : Ascii c) (foregroundColor backgroundColor : Nat) :
    ShowsNext h blank mode s P (charMarks s₀ mode (c, foregroundColor, backgroundColor))
      (krdwtpOutColoredCharacter_NoSpin s c foregroundColor backgroundColor) := by
  have hshownIff : Shown s.protocol c ↔ Shown s₀.protocol c := by
    rw [hs.protocol]
    rfl
  rw [krdwtpOutColoredCharacter_NoSpin, charMarks]
  by_cases hshown : Shown s₀.protocol c
  · have hnotNot := not_not_intro (hshownIff.mpr hshown)
    rw [outCharacterWith, if_neg (not_not_intro hshown), if_neg hnotNot]
    by_cases hnewline : c = ch '\n'
    · obtain ⟨s', hnext, hcpu, hshows⟩ := newline_shows hs hblank
      rw [if_pos hnewline, if_pos hnewline]
      exact Or.inl ⟨s', hnext, hcpu, hshows, not_false, trivial⟩
    · obtain ⟨hpicture, hcpu, hprotocol⟩ := drawn_shows hs hc foregroundColor backgroundColor
      rw [if_neg hnewline, if_neg hnewline]
      exact wrapped_shows hpicture hcpu hprotocol hheld
  · rw [outCharacterWith, if_pos hshown, if_pos (fun hs => hshown (hshownIff.mp hs))]
    exact Or.inl ⟨s, rfl, rfl, hs, trivial⟩

/-! Calls. -/

theorem Shows.congr (hs : Shows h blank mode s P) (hprotocol : s'.protocol = s.protocol)
    (hmemory : s'.memory = s.memory) (hmeltdown : s'.bMeltdown = s.bMeltdown) :
    Shows h blank mode s' P :=
  ⟨hs.toPictured.congr hmemory hmeltdown, hprotocol.trans hs.protocol, hs.column⟩

def printHeld (s : DwtpSystem) (prints : List (CHAR × Nat × Nat)) : Except Stop DwtpSystem :=
  prints.foldlM (fun s e => krdwtpOutColoredCharacter_NoSpin s e.1 e.2.1 e.2.2) s

def printLocked (s : DwtpSystem) (prints : List (CHAR × Nat × Nat)) : Except Stop DwtpSystem := do
  let s ← acquireDwtp s
  let s ← printHeld s prints
  return relinquishDwtp s

theorem printHeld_shows (hblank : BlankBelow s₀.protocol blank)
    (prints : List (CHAR × Nat × Nat)) (hascii : ∀ e ∈ prints, Ascii e.1)
    (hs : Shows h blank mode s P) (hheld : LockHeld s) :
    ShowsNext h blank mode s P (prints.flatMap (charMarks s₀ mode)) (printHeld s prints) := by
  induction prints generalizing s P with
  | nil => exact Or.inl ⟨s, rfl, rfl, hs, trivial⟩
  | cons e prints ih =>
    have hfirst : Ascii e.1 := hascii e List.mem_cons_self
    rw [List.flatMap_cons, printHeld, List.foldlM_cons]
    cases character_shows hs hblank hheld hfirst e.2.1 e.2.2 with
    | inl hok =>
      obtain ⟨s₁, hout, hcpu, hshows, hunwrapped⟩ := hok
      have hheld₁ : LockHeld s₁ := by
        rw [LockHeld, hcpu]
        exact hheld
      rw [hout]
      cases ih (fun e he => hascii e (List.mem_cons_of_mem _ he)) hshows hheld₁ with
      | inl hrest =>
        obtain ⟨s₂, hout₂, hcpu₂, hshows₂, hunwrapped₂⟩ := hrest
        refine Or.inl ⟨s₂, hout₂, hcpu₂.trans hcpu, ?_, ?_⟩
        · rw [Paper.run_append]
          exact hshows₂
        · exact Paper.unwrapped_append.mpr ⟨hunwrapped, hunwrapped₂⟩
      | inr hstops =>
        exact Or.inr ⟨hstops.1, fun hb => hstops.2 (Paper.unwrapped_append.mp hb).2⟩
    | inr hstops =>
      rw [hstops.1]
      exact Or.inr ⟨rfl, fun hb => hstops.2 (Paper.unwrapped_append.mp hb).1⟩

def ShowsAfter (h : ScreenMemory s₀.protocol) (blank : Nat → Nat → Tile) (mode : Bool)
    (P : Paper Tile) (marks : List (Mark Tile)) (r : Except Stop DwtpSystem) : Prop :=
  (∃ s', r = .ok s' ∧ LockFree s' ∧
    Shows h blank mode s' (P.run (lineColumns s₀.protocol) marks) ∧
    P.Unwrapped (lineColumns s₀.protocol) (textLines s₀.protocol) marks) ∨
  (r = .error .spins ∧ ¬ P.Unwrapped (lineColumns s₀.protocol) (textLines s₀.protocol) marks)

theorem acquireDwtp_shows (hs : Shows h blank mode s P) (hfree : LockFree s) :
    ∃ s', acquireDwtp s = .ok s' ∧ LockHeld s' ∧ Shows h blank mode s' P := by
  have hclear : ¬(s.cpu.dwState sg_DwtpSpinlock).testBit 0 = true := by
    rw [hfree]
    exact Bool.false_ne_true
  rw [acquireDwtp, acquireOrWaitSpinlock, if_neg hclear]
  refine ⟨_, rfl, ?_, hs.congr rfl rfl rfl⟩
  simp [LockHeld]

theorem printLocked_shows (hblank : BlankBelow s₀.protocol blank)
    (prints : List (CHAR × Nat × Nat)) (hascii : ∀ e ∈ prints, Ascii e.1)
    (hs : Shows h blank mode s P) (hfree : LockFree s) :
    ShowsAfter h blank mode P (prints.flatMap (charMarks s₀ mode)) (printLocked s prints) := by
  obtain ⟨s₁, hacquire, hheld, hs₁⟩ := acquireDwtp_shows hs hfree
  rw [printLocked, hacquire]
  change ShowsAfter h blank mode P _ (printHeld s₁ prints >>= fun s => pure (relinquishDwtp s))
  cases printHeld_shows hblank prints hascii hs₁ hheld with
  | inl hok =>
    obtain ⟨s₂, hout, _, hshows, hunwrapped⟩ := hok
    rw [hout]
    exact Or.inl ⟨relinquishDwtp s₂, rfl, relinquishDwtp_free s₂, hshows.congr rfl rfl rfl,
      hunwrapped⟩
  | inr hstops =>
    rw [hstops.1]
    exact Or.inr ⟨rfl, hstops.2⟩

end Screen

def krdwtpSetUppercaseMode (s : DwtpSystem) (bUppercaseModeEnabled : Bool) :
    Except Stop DwtpSystem := do
  let s ← acquireDwtp s
  return relinquishDwtp
    { s with protocol := { s.protocol with bUppercaseMode := bUppercaseModeEnabled } }

inductive Output where
  | character (c : CHAR) (foregroundColor backgroundColor : Nat)
  | text (pText : CString) (foregroundColor backgroundColor : Nat)
  | format (pFmt : CString) (args : VaList)
  | uppercaseMode (enabled : Bool)

namespace Output

def run (s : DwtpSystem) : Output → Except Stop DwtpSystem
  | character c foregroundColor backgroundColor =>
    krdwtpOutColoredCharacter s c foregroundColor backgroundColor
  | text pText foregroundColor backgroundColor =>
    Prod.snd <$> krdwtpOutColoredText s pText foregroundColor backgroundColor
  | format pFmt args => Prod.snd <$> krdwtpOutFormatTextVariadic s pFmt args
  | uppercaseMode enabled => krdwtpSetUppercaseMode s enabled

def prints : Output → List (CHAR × Nat × Nat)
  | character c foregroundColor backgroundColor => [(c, foregroundColor, backgroundColor)]
  | text pText foregroundColor backgroundColor =>
    pText.text.map fun c => (c, foregroundColor, backgroundColor)
  | format pFmt args =>
    (formattedText pFmt args).2.map fun c => (c, KRDWTP_COLOR_WHITE, KRDWTP_BACKGROUND)
  | uppercaseMode _ => []

def modeAfter (mode : Bool) : Output → Bool
  | uppercaseMode enabled => enabled
  | _ => mode

def marks (s₀ : DwtpSystem) : Bool → List Output → List (Mark Tile)
  | _, [] => []
  | mode, o :: rest => o.prints.flatMap (charMarks s₀ mode) ++ marks s₀ (o.modeAfter mode) rest

theorem run_character (s : DwtpSystem) (c : CHAR) (foregroundColor backgroundColor : Nat) :
    (character c foregroundColor backgroundColor).run s =
      printLocked s (character c foregroundColor backgroundColor).prints := by
  simp only [run, krdwtpOutColoredCharacter, printLocked, printHeld, prints, List.foldlM_cons,
    List.foldlM_nil, bind_pure]

theorem run_text (s : DwtpSystem) (pText : CString) (foregroundColor backgroundColor : Nat) :
    (text pText foregroundColor backgroundColor).run s =
      printLocked s (text pText foregroundColor backgroundColor).prints := by
  simp only [run, krdwtpOutColoredText, krdwtpOutColoredText_NoSpin, outText_eq, printLocked,
    printHeld, prints, List.foldlM_map, map_bind, bind_assoc, pure_bind, map_pure]

theorem run_format (s : DwtpSystem) (pFmt : CString) (args : VaList) :
    (format pFmt args).run s = printLocked s (format pFmt args).prints := by
  simp only [run, krdwtpOutFormatTextVariadic, outFormat_eq, printLocked, printHeld, prints,
    List.foldlM_map, map_bind, bind_assoc, pure_bind, map_pure]
  rfl

end Output

section Runs
variable {h : ScreenMemory s₀.protocol}

theorem output_shows (hblank : BlankBelow s₀.protocol blank) (o : Output)
    (hascii : ∀ e ∈ o.prints, Ascii e.1) (hs : Shows h blank mode s P) (hfree : LockFree s) :
    (∃ s', o.run s = .ok s' ∧ LockFree s' ∧
      Shows h blank (o.modeAfter mode) s'
        (P.run (lineColumns s₀.protocol) (o.prints.flatMap (charMarks s₀ mode))) ∧
      P.Unwrapped (lineColumns s₀.protocol) (textLines s₀.protocol)
        (o.prints.flatMap (charMarks s₀ mode))) ∨
    (o.run s = .error .spins ∧
      ¬ P.Unwrapped (lineColumns s₀.protocol) (textLines s₀.protocol)
        (o.prints.flatMap (charMarks s₀ mode))) := by
  cases o with
  | character c foregroundColor backgroundColor =>
    rw [Output.run_character]
    exact printLocked_shows hblank _ hascii hs hfree
  | text pText foregroundColor backgroundColor =>
    rw [Output.run_text]
    exact printLocked_shows hblank _ hascii hs hfree
  | format pFmt args =>
    rw [Output.run_format]
    exact printLocked_shows hblank _ hascii hs hfree
  | uppercaseMode enabled =>
    obtain ⟨s₁, hacquire, _, hs₁⟩ := acquireDwtp_shows hs hfree
    refine Or.inl ⟨relinquishDwtp { s₁ with
      protocol := { s₁.protocol with bUppercaseMode := enabled } }, ?_, relinquishDwtp_free _,
      ⟨hs₁.toPictured.congr rfl rfl, ?_, hs₁.column⟩, trivial⟩
    · rw [Output.run, krdwtpSetUppercaseMode, hacquire]
      rfl
    · change { s₁.protocol with bUppercaseMode := enabled } = _
      rw [hs₁.protocol]
      rfl

/-- Any sequence of calls returns exactly if no line fills up where the screen ends, and shows the
end of the paper then. -/
theorem outputs_shows (hblank : BlankBelow s₀.protocol blank) (outputs : List Output)
    (hascii : ∀ o ∈ outputs, ∀ e ∈ o.prints, Ascii e.1) (hs : Shows h blank mode s P)
    (hfree : LockFree s) :
    (∃ s' mode', outputs.foldlM Output.run s = .ok s' ∧
      Shows h blank mode' s'
        (P.run (lineColumns s₀.protocol) (Output.marks s₀ mode outputs)) ∧
      P.Unwrapped (lineColumns s₀.protocol) (textLines s₀.protocol)
        (Output.marks s₀ mode outputs)) ∨
    (outputs.foldlM Output.run s = .error .spins ∧
      ¬ P.Unwrapped (lineColumns s₀.protocol) (textLines s₀.protocol)
        (Output.marks s₀ mode outputs)) := by
  induction outputs generalizing s mode P with
  | nil => exact Or.inl ⟨s, mode, rfl, hs, trivial⟩
  | cons o outputs ih =>
    rw [List.foldlM_cons, Output.marks]
    cases output_shows hblank o (hascii o List.mem_cons_self) hs hfree with
    | inl hok =>
      obtain ⟨s₁, hrun, hfree₁, hshows, hunwrapped⟩ := hok
      rw [hrun]
      cases ih (fun o ho => hascii o (List.mem_cons_of_mem _ ho)) hshows hfree₁ with
      | inl hrest =>
        obtain ⟨s₂, mode₂, hrun₂, hshows₂, hunwrapped₂⟩ := hrest
        refine Or.inl ⟨s₂, mode₂, hrun₂, ?_, Paper.unwrapped_append.mpr ⟨hunwrapped, hunwrapped₂⟩⟩
        rw [Paper.run_append]
        exact hshows₂
      | inr hstops =>
        exact Or.inr ⟨hstops.1, fun hb => hstops.2 (Paper.unwrapped_append.mp hb).2⟩
    | inr hstops =>
      rw [hstops.1]
      exact Or.inr ⟨rfl, fun hb => hstops.2 (Paper.unwrapped_append.mp hb).1⟩

end Runs

/-! The start. -/

def krdwtpInitialize (s : DwtpSystem) (arena : Arena) (font : KrDisplaywideTextProtocolFont)
    (addrFrameBuffer frameBufferSize framebufferWidth framebufferHeight pixelsPerScanLine : Nat) :
    Except Stop (DwtpSystem × Arena) := do
  let s ← acquireDwtp s
  let (addrRamFrameBuffer, arena) := krBootstrapArenaAcquire arena (wrap32 (frameBufferSize * 2))
  let protocol : KrDisplaywideTextProtocolState :=
    { frameBufferSize := frameBufferSize
      frameBufferWidth := framebufferWidth
      frameBufferHeight := framebufferHeight
      pixelsPerScanLine := pixelsPerScanLine
      cursorX := 0
      cursorY := 0
      addrFrameBuffer := addrFrameBuffer
      addrRamFrameBuffer := addrRamFrameBuffer
      bytesPerPixel := 4
      font := font
      bUppercaseMode := false }
  let memory := fill s.memory addrRamFrameBuffer (wrap32 (frameBufferSize * 2)) 0#8
  return (relinquishDwtp { s with protocol := protocol, memory := memory }, arena)

/-- The paper before anything is printed: the screen in its color, black below. -/
def clearTile (p : KrDisplaywideTextProtocolState) (clearColor : Nat) (k _ : Nat) : Tile :=
  fun r _ => if k * lineHeight p + r < p.frameBufferHeight then clearColor % 2 ^ 32 else 0

theorem clearTile_blankBelow (h : ScreenMemory p) (clearColor : Nat) :
    BlankBelow p (clearTile p clearColor) := by
  intro k j r i hk
  have hbelow : (textLines p + 1) * lineHeight p ≤ k * lineHeight p :=
    Nat.mul_le_mul_right (lineHeight p) hk
  have hheight := lt_textLines_mul h.roomy
  rw [clearTile, if_neg (by omega)]

def clearDots (p : KrDisplaywideTextProtocolState) (clearColor : Nat) : List Dot :=
  (List.range p.frameBufferHeight).flatMap fun y =>
    (List.range p.frameBufferWidth).flatMap fun x => [⟨y, x, clearColor⟩]

theorem repainted_clear {clearColor row column old : Nat} :
    repainted (clearDots p clearColor) row column old =
      if row < p.frameBufferHeight ∧ column < p.frameBufferWidth then clearColor % 2 ^ 32
      else old := by
  have hmem : ∀ d, d ∈ clearDots p clearColor ↔ ∃ y < p.frameBufferHeight,
      ∃ x < p.frameBufferWidth, d = ⟨y, x, clearColor⟩ := by
    simp [clearDots, List.mem_flatMap]
  by_cases hin : row < p.frameBufferHeight ∧ column < p.frameBufferWidth
  · rw [if_pos hin]
    refine repainted_of_at (fun d hd _ => ?_) ⟨⟨row, column, clearColor⟩, ?_, rfl, rfl⟩
    · obtain ⟨y, _, x, _, rfl⟩ := (hmem d).mp hd
      rfl
    · exact (hmem _).mpr ⟨row, hin.1, column, hin.2, rfl⟩
  · rw [if_neg hin]
    refine repainted_of_not_at fun d hd hat => ?_
    obtain ⟨y, hy, x, hx, rfl⟩ := (hmem d).mp hd
    obtain ⟨rfl, rfl⟩ : y = row ∧ x = column := hat
    exact hin ⟨hy, hx⟩

theorem clearFrameBuffer_painted (h : ScreenMemory p) (clearColor : Nat) (m : Bytes) :
    Painted h.ram h.frame m (clearDots p clearColor) (clearFrameBuffer p clearColor m) := by
  refine painted_foldl _ (fun m y hy => ?_) m
  refine painted_foldl _ (fun m x hx => ?_) m
  have hrow := (List.mem_range.mp hy).trans (lt_textLines_mul h.roomy)
  exact h.painted_ram_frame hrow ((List.mem_range.mp hx).trans_le h.roomy.stride)

theorem krdwtpResetState_spec {clearColor : Nat} (hreset : krdwtpResetState s clearColor = .ok s') :
    s'.protocol = place s.protocol 0 0 ∧ LockFree s' ∧
      s'.memory = clearFrameBuffer s'.protocol clearColor s.memory := by
  rw [krdwtpResetState, acquireDwtp] at hreset
  cases hlock : CPU.acquireOrWaitSpinlock s.cpu sg_DwtpSpinlock with
  | none =>
    rw [hlock] at hreset
    cases hreset
  | some cpu =>
    rw [hlock] at hreset
    cases hreset
    exact ⟨rfl, relinquishDwtp_free _, rfl⟩

theorem reset_shows {clearColor : Nat} (hreset : krdwtpResetState s clearColor = .ok s')
    (h : ScreenMemory s'.protocol) (hmode : s.protocol.bUppercaseMode = false)
    (hzero : ∀ row column, row < h.ram.rows → column < h.ram.stride →
      h.ram.pixel s.memory row column = 0) :
    Shows h (clearTile s'.protocol clearColor) false s'
      ⟨clearTile s'.protocol clearColor, 0, 0⟩ := by
  obtain ⟨hplace, _, hmemory⟩ := krdwtpResetState_spec hreset
  have hpainted := clearFrameBuffer_painted h clearColor s.memory
  rw [← hmemory] at hpainted
  refine ⟨⟨rfl, fun _ _ _ => rfl, fun _ _ _ => rfl, fun k j r i hk hj hr hi => ?_,
    fun row column hr hc => ?_⟩, ?_, h.roomy.columns_pos⟩
  · obtain ⟨hrow, hcol⟩ := cell_in_ram h hk hj hr hi
    have hlimit : lineColumns s'.protocol * columnWidth s'.protocol ≤
        s'.protocol.frameBufferWidth := Nat.div_mul_le_self _ _
    have hwindow : Paper.window (textLines s'.protocol)
        ⟨clearTile s'.protocol clearColor, 0, 0⟩ k j r i =
        clearTile s'.protocol clearColor k j r i := by
      rw [Paper.window, Paper.top, Nat.zero_sub, Nat.zero_add]
    rw [hpainted.first _ _ hrow hcol, repainted_clear, hzero _ _ hrow hcol, hwindow, clearTile]
    simp only [cell_within hj hlimit hi, and_true]
  · have hframe := hr.trans (lt_textLines_mul h.roomy)
    have hcol := hc.trans_le h.roomy.stride
    rw [hpainted.first _ _ (ScreenMemory.row_in_ram hframe) hcol,
      hpainted.second _ _ hframe hcol, repainted_clear, repainted_clear, if_pos ⟨hr, hc⟩,
      if_pos ⟨hr, hc⟩]
  · have hline : min 0 (textLines s'.protocol) = 0 := Nat.zero_min _
    rw [hline, hplace, ← hmode]
    rfl

theorem krdwtpInitialize_spec {arena arena' : Arena} {font : KrDisplaywideTextProtocolFont}
    {addrFrameBuffer frameBufferSize framebufferWidth framebufferHeight pixelsPerScanLine : Nat}
    (hinit : krdwtpInitialize s arena font addrFrameBuffer frameBufferSize framebufferWidth
      framebufferHeight pixelsPerScanLine = .ok (s', arena')) :
    s'.protocol.bUppercaseMode = false ∧
      s'.memory = fill s.memory s'.protocol.addrRamFrameBuffer
        (wrap32 (s'.protocol.frameBufferSize * 2)) 0#8 := by
  rw [krdwtpInitialize, acquireDwtp] at hinit
  -- Where the buffer lies does not matter; its address must not be computed below.
  generalize krBootstrapArenaAcquire arena (wrap32 (frameBufferSize * 2)) = taken at hinit
  obtain ⟨addrRamFrameBuffer, arena₁⟩ := taken
  cases hlock : CPU.acquireOrWaitSpinlock s.cpu sg_DwtpSpinlock with
  | none =>
    rw [hlock] at hinit
    cases hinit
  | some cpu =>
    rw [hlock] at hinit
    obtain ⟨rfl, -⟩ := Prod.mk.inj (Except.ok.inj hinit)
    exact ⟨rfl, rfl⟩

theorem fill_zero (h : ScreenMemory p) {row column : Nat} (hr : row < h.ram.rows)
    (hc : column < h.ram.stride) :
    h.ram.pixel (fill m p.addrRamFrameBuffer (wrap32 (p.frameBufferSize * 2)) 0#8) row column =
      0 := by
  have hsize := h.ramSize
  have hend := h.ram.address_stop hr hc
  have hstop : h.ram.stop = p.addrRamFrameBuffer + 2 * p.frameBufferSize := rfl
  have hbase : p.addrRamFrameBuffer ≤ h.ram.address row column := Nat.le_add_right _ _
  rw [wrap32_of_lt (show p.frameBufferSize * 2 < 2 ^ 32 by omega)]
  exact load_zeros fun k hk => if_pos (by omega)

def framePixel (s : DwtpSystem) (row column : Nat) : Nat :=
  load s.memory (s.protocol.addrFrameBuffer + 4 * (row * s.protocol.pixelsPerScanLine + column)) 4

/-- The lines on the screen are the paper's last ones. -/
def OnFrame (s : DwtpSystem) (P : Paper Tile) : Prop :=
  ∀ k j r i, k < textLines s.protocol → j < lineColumns s.protocol → r < lineHeight s.protocol →
    i < columnWidth s.protocol →
    framePixel s (k * lineHeight s.protocol + r) (j * columnWidth s.protocol + i) =
      P.window (textLines s.protocol) k j r i

theorem Shows.onFrame {h : ScreenMemory s₀.protocol} (hs : Shows h blank mode s P) :
    OnFrame s P := by
  intro k j r i hk hj hr hi
  rw [hs.protocol] at hk hj hr hi ⊢
  have hlimit : lineColumns s₀.protocol * columnWidth s₀.protocol ≤
      s₀.protocol.frameBufferWidth := Nat.div_mul_le_self _ _
  have hrow : k * lineHeight s₀.protocol + r < s₀.protocol.frameBufferHeight :=
    cell_within hk (textLines_mul_le _) hr
  have hmirrored := hs.mirrored _ _ hrow (cell_within hj hlimit hi)
  have hpixel : framePixel s (k * lineHeight s₀.protocol + r) (j * columnWidth s₀.protocol + i) =
      h.frame.pixel s.memory (k * lineHeight s₀.protocol + r)
        (j * columnWidth s₀.protocol + i) := by
    rw [framePixel, hs.protocol]
    rfl
  exact hpixel.trans (hmirrored.trans (hs.cells k j r i (Nat.le_succ_of_le hk.le) hj hr hi))

def screenArena : Arena := ⟨0xFFFFFFFF80400000, 0xFFFFFFFF80400000, 0xFFFFFFFF80600000⟩

theorem krBootstrapArenaAcquire_screenArena :
    krBootstrapArenaAcquire screenArena (wrap32 (1024000 * 2)) =
      (0xFFFFFFFF80400000, { screenArena with pPtr := 0xFFFFFFFF805F4000 }) := by decide

theorem fullScreen_memory : ScreenMemory (place fullScreen.protocol 0 0) where
  roomy := { fullScreen_roomy with }
  lines := by decide
  bytesPerPixel := rfl
  fontRows := by decide
  ramSize := by decide
  frameStop := by decide
  ramStop := by decide
  fontStop := by decide
  buffersApart := by decide
  fontApartRam := by decide
  fontApartFrame := by decide

theorem charMarks_bare {e : CHAR × Nat × Nat} (s₀ : DwtpSystem) (hshown : Shown s₀.protocol e.1) :
    (charMarks s₀ mode e).map Mark.bare =
      [if e.1 = ch '\n' then .newline else .glyph ()] := by
  rw [charMarks, if_neg (not_not_intro hshown)]
  split <;> rfl

theorem flatMap_charMarks_bare (s₀ : DwtpSystem) (prints : List (CHAR × Nat × Nat))
    (hshown : ∀ e ∈ prints, Shown s₀.protocol e.1) :
    (prints.flatMap (charMarks s₀ mode)).map Mark.bare =
      prints.map fun e => if e.1 = ch '\n' then .newline else .glyph () := by
  induction prints with
  | nil => rfl
  | cons e prints ih =>
    rw [List.flatMap_cons, List.map_append, charMarks_bare s₀ (hshown e List.mem_cons_self),
      ih fun e he => hshown e (List.mem_cons_of_mem _ he), List.map_cons, List.singleton_append]

def firstOutputs : List Output :=
  [.text ⟨List.replicate 81 (ch 'a') ++ List.replicate 26 (ch '\n'), [], by decide +kernel,
      by decide⟩ KRDWTP_COLOR_WHITE KRDWTP_BACKGROUND,
    .character (ch 'b') KRDWTP_COLOR_WHITE KRDWTP_BACKGROUND]

end Ych.Dwtp
