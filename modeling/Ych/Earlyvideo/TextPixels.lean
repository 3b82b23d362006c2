import Ych.Base.Raster
import Ych.Earlyvideo.TextBounds

/-! Glyphs on the frame buffer and on its copy in RAM, pixel by pixel. -/
namespace Ych.Dwtp
open Words Bitmap ByteMemory Raster Krnlstring

abbrev Tile := Nat → Nat → Nat

def bitColor (s : DwtpSystem) (char : CHAR) (foregroundColor backgroundColor row bit : Nat) : Nat :=
  let font := s.protocol.font
  let dwBytesPerGlyph := (font.columnsPerEntry + 7) / 8
  let dwGlyphSize := font.rowsPerEntry * dwBytesPerGlyph
  let pGlyph := font.characterSet + wrap32 (toUINT char * dwGlyphSize)
  let pRow := pGlyph + wrap32 (row * dwBytesPerGlyph)
  let iBit := if font.bDirectionBit then (7 + 256 - bit) % 256 else bit % 8
  let pxlit := hasFlag (s.memory (wrap64 (pRow + bit / 8))).toNat (1 <<< (iBit % 32))
  if pxlit then foregroundColor
  else if s.bMeltdown then KRDWTP_COLOR_DARK_PURPLE else backgroundColor

def glyphTile (s : DwtpSystem) (char : CHAR) (foregroundColor backgroundColor : Nat) : Tile :=
  fun r x => bitColor s char foregroundColor backgroundColor (r / s.protocol.font.scaleFactor)
    (x / s.protocol.font.scaleFactor) % 2 ^ 32

def lineHeight (p : KrDisplaywideTextProtocolState) : Nat :=
  p.font.rowsPerEntry * p.font.scaleFactor

def columnWidth (p : KrDisplaywideTextProtocolState) : Nat :=
  p.font.columnsPerEntry * p.font.scaleFactor

def startX (p : KrDisplaywideTextProtocolState) : Nat :=
  wrap32 (p.cursorX * p.font.columnsPerEntry * p.font.scaleFactor)

def startY (p : KrDisplaywideTextProtocolState) : Nat :=
  wrap32 (p.cursorY * p.font.rowsPerEntry * p.font.scaleFactor)

def lineBytes (p : KrDisplaywideTextProtocolState) : Nat :=
  4 * (lineHeight p * p.pixelsPerScanLine)

/-- The frame buffer with room for a line below it, its copy in RAM and the font's characters of
seven bits are apart, and the screen has room for two lines. -/
structure ScreenMemory (p : KrDisplaywideTextProtocolState) : Prop where
  roomy : RoomyScreen p
  lines : 2 ≤ textLines p
  bytesPerPixel : p.bytesPerPixel = 4
  fontRows : p.font.rowsPerEntry < 2 ^ 8
  ramSize : 2 * p.frameBufferSize < 2 ^ 32
  frameStop : p.addrFrameBuffer + (p.frameBufferSize + lineBytes p) < 2 ^ 64
  ramStop : p.addrRamFrameBuffer + 2 * p.frameBufferSize < 2 ^ 64
  fontStop : p.font.characterSet + 128 * p.font.rowsPerEntry < 2 ^ 64
  buffersApart : p.addrRamFrameBuffer + 2 * p.frameBufferSize ≤ p.addrFrameBuffer ∨
    p.addrFrameBuffer + (p.frameBufferSize + lineBytes p) ≤ p.addrRamFrameBuffer
  fontApartRam : p.font.characterSet + 128 * p.font.rowsPerEntry ≤ p.addrRamFrameBuffer ∨
    p.addrRamFrameBuffer + 2 * p.frameBufferSize ≤ p.font.characterSet
  fontApartFrame : p.font.characterSet + 128 * p.font.rowsPerEntry ≤ p.addrFrameBuffer ∨
    p.addrFrameBuffer + (p.frameBufferSize + lineBytes p) ≤ p.font.characterSet

def SameFont (p : KrDisplaywideTextProtocolState) (m m' : Bytes) : Prop :=
  SameOn m m' p.font.characterSet (p.font.characterSet + 128 * p.font.rowsPerEntry)

def typing (p : KrDisplaywideTextProtocolState) (mode : Bool) (x y : Nat) :
    KrDisplaywideTextProtocolState :=
  { p with cursorX := x, cursorY := y, bUppercaseMode := mode }

variable {p : KrDisplaywideTextProtocolState} {s s₀ s' : DwtpSystem} {m m' : Bytes} {c : CHAR}
  {mode : Bool} {foregroundColor backgroundColor : Nat} {dots dots' : List Dot}

theorem lineHeight_pos (h : RoomyScreen p) : 0 < lineHeight p := Nat.mul_pos h.rows h.scale

theorem textLines_mul_le (p : KrDisplaywideTextProtocolState) :
    textLines p * lineHeight p ≤ p.frameBufferHeight := Nat.div_mul_le_self _ _

theorem lt_textLines_mul (h : RoomyScreen p) :
    p.frameBufferHeight < (textLines p + 1) * lineHeight p := by
  rw [Nat.mul_comm]
  exact Nat.lt_mul_div_succ _ (lineHeight_pos h)

namespace ScreenMemory
variable (h : ScreenMemory p)
include h

theorem screen_fits :
    4 * (textLines p * lineHeight p * p.pixelsPerScanLine) ≤ p.frameBufferSize := by
  have hrows := Nat.mul_le_mul_right p.pixelsPerScanLine (textLines_mul_le p)
  have hsize := h.roomy.size
  omega

theorem frame_fits : 4 * ((textLines p + 1) * lineHeight p * p.pixelsPerScanLine) ≤
    p.frameBufferSize + lineBytes p := by
  have hfits := h.screen_fits
  rw [Nat.add_mul, Nat.one_mul, Nat.add_mul, lineBytes]
  omega

theorem ram_fits : 4 * ((textLines p + 2) * lineHeight p * p.pixelsPerScanLine) ≤
    2 * p.frameBufferSize := by
  have hlines : (textLines p + 2) * lineHeight p ≤ 2 * (textLines p * lineHeight p) := by
    rw [← Nat.mul_assoc]
    refine Nat.mul_le_mul_right _ ?_
    have := h.lines
    omega
  have hrows := Nat.mul_le_mul_right p.pixelsPerScanLine hlines
  have hfits := h.screen_fits
  rw [Nat.mul_assoc 2] at hrows
  omega

/-- The buffer in RAM shows a line more than the frame buffer and the line below it. -/
def ram : Surface where
  base := p.addrRamFrameBuffer
  stride := p.pixelsPerScanLine
  rows := (textLines p + 2) * lineHeight p
  extent := 2 * p.frameBufferSize
  fits := h.ram_fits

def frame : Surface where
  base := p.addrFrameBuffer
  stride := p.pixelsPerScanLine
  rows := (textLines p + 1) * lineHeight p
  extent := p.frameBufferSize + lineBytes p
  fits := h.frame_fits

theorem frame_extent : p.frameBufferSize + lineBytes p < 2 ^ 32 := by
  have hlines := Nat.mul_le_mul_right (lineHeight p * p.pixelsPerScanLine)
    (Nat.le_of_succ_le h.lines)
  have hfits := h.screen_fits
  have hram := h.ramSize
  rw [Nat.mul_assoc] at hfits
  rw [lineBytes]
  omega

theorem ram_apart_frame : h.ram.Apart h.frame := h.buffersApart

end ScreenMemory

theorem storePixel_eq (u : Surface) {row column color : Nat} (hstop : u.stop < 2 ^ 64)
    (hextent : u.extent < 2 ^ 32) (hr : row < u.rows) (hc : column < u.stride) :
    storePixel m u.base (wrap32 (row * u.stride + column)) color = u.put m row column color := by
  have hindex := index_lt hr hc
  have hfits := u.fits
  have hend := u.address_stop hr hc
  have haddress : u.base + 4 * (row * u.stride + column) = u.address row column := rfl
  rw [storePixel, wrap32_of_lt (by omega), haddress, wrap64_of_lt (by omega)]
  rfl

namespace ScreenMemory
variable (h : ScreenMemory p) {row column color : Nat}

theorem storePixel_frame (hr : row < (textLines p + 1) * lineHeight p)
    (hc : column < p.pixelsPerScanLine) :
    storePixel m p.addrFrameBuffer (wrap32 (row * p.pixelsPerScanLine + column)) color =
      h.frame.put m row column color :=
  storePixel_eq h.frame h.frameStop h.frame_extent hr hc

theorem storePixel_ram (hr : row < (textLines p + 2) * lineHeight p)
    (hc : column < p.pixelsPerScanLine) :
    storePixel m p.addrRamFrameBuffer (wrap32 (row * p.pixelsPerScanLine + column)) color =
      h.ram.put m row column color :=
  storePixel_eq h.ram h.ramStop h.ramSize hr hc

theorem row_in_ram (hr : row < (textLines p + 1) * lineHeight p) :
    row < (textLines p + 2) * lineHeight p :=
  hr.trans_le (Nat.mul_le_mul_right (lineHeight p) (Nat.le_succ _))

theorem painted_frame_ram (hr : row < (textLines p + 1) * lineHeight p)
    (hc : column < p.pixelsPerScanLine) :
    Painted h.ram h.frame m [⟨row, column, color⟩]
      (storePixel (storePixel m p.addrFrameBuffer (wrap32 (row * p.pixelsPerScanLine + column))
        color) p.addrRamFrameBuffer (wrap32 (row * p.pixelsPerScanLine + column)) color) := by
  rw [h.storePixel_frame hr hc, h.storePixel_ram (row_in_ram hr) hc]
  exact (painted_put h.ram_apart_frame.symm rfl hr (row_in_ram hr) hc).symm

theorem painted_ram_frame (hr : row < (textLines p + 1) * lineHeight p)
    (hc : column < p.pixelsPerScanLine) :
    Painted h.ram h.frame m [⟨row, column, color⟩]
      (storePixel (storePixel m p.addrRamFrameBuffer (wrap32 (row * p.pixelsPerScanLine + column))
        color) p.addrFrameBuffer (wrap32 (row * p.pixelsPerScanLine + column)) color) := by
  rw [h.storePixel_ram (row_in_ram hr) hc, h.storePixel_frame hr hc]
  exact painted_put h.ram_apart_frame rfl (row_in_ram hr) hr hc

end ScreenMemory

structure Paints (h : ScreenMemory p) (s : DwtpSystem) (dots : List Dot) (s' : DwtpSystem) :
    Prop where
  protocol : s'.protocol = s.protocol
  cpu : s'.cpu = s.cpu
  bMeltdown : s'.bMeltdown = s.bMeltdown
  memory : Painted h.ram h.frame s.memory dots s'.memory

/-- The processor's state apart, nothing that the glyphs depend on has changed. -/
structure SameGlyphs (p : KrDisplaywideTextProtocolState) (s s' : DwtpSystem) : Prop where
  protocol : s'.protocol = s.protocol
  bMeltdown : s'.bMeltdown = s.bMeltdown
  font : SameFont p s.memory s'.memory

variable {h : ScreenMemory p}

theorem Paints.trans {s'' : DwtpSystem} (hs : Paints h s dots s') (hs' : Paints h s' dots' s'') :
    Paints h s (dots ++ dots') s'' :=
  ⟨hs'.protocol.trans hs.protocol, hs'.cpu.trans hs.cpu, hs'.bMeltdown.trans hs.bMeltdown,
    hs.memory.trans hs'.memory⟩

theorem Painted.sameFont (hm : Painted h.ram h.frame m dots m') : SameFont p m m' :=
  hm.rest _ _ h.fontApartRam h.fontApartFrame

theorem SameGlyphs.paints (hs : SameGlyphs p s₀ s) (hpaints : Paints h s dots s') :
    SameGlyphs p s₀ s' :=
  ⟨hpaints.protocol.trans hs.protocol, hpaints.bMeltdown.trans hs.bMeltdown,
    SameOn.trans hs.font (Painted.sameFont hpaints.memory)⟩

theorem foldl_paints {step : DwtpSystem → Nat → DwtpSystem} {g : Nat → List Dot} (n : Nat)
    (hstep : ∀ s, SameGlyphs p s₀ s → ∀ k, k < n → Paints h s (g k) (step s k))
    (hs : SameGlyphs p s₀ s) :
    Paints h s ((List.range n).flatMap g) ((List.range n).foldl step s) := by
  induction n with
  | zero => exact ⟨rfl, rfl, rfl, Painted.refl _ _ _⟩
  | succ n ih =>
    have hrest := ih fun s hs k hk => hstep s hs k (Nat.lt_succ_of_lt hk)
    have hlast := hstep _ (hs.paints hrest) n (Nat.lt_succ_self n)
    rw [List.range_succ, List.flatMap_append, List.foldl_append, List.flatMap_singleton]
    exact hrest.trans hlast

/-! A glyph. -/

def bitDots (s : DwtpSystem) (char : CHAR) (foregroundColor backgroundColor row bit : Nat) :
    List Dot :=
  (List.range s.protocol.font.scaleFactor).flatMap fun scalarY =>
    (List.range s.protocol.font.scaleFactor).flatMap fun scalarX =>
      [⟨(pixelPosition s.protocol row bit scalarY scalarX).1,
        (pixelPosition s.protocol row bit scalarY scalarX).2,
        bitColor s char foregroundColor backgroundColor row bit⟩]

def glyphDots (s : DwtpSystem) (char : CHAR) (foregroundColor backgroundColor : Nat) : List Dot :=
  (List.range s.protocol.font.rowsPerEntry).flatMap fun row =>
    (List.range s.protocol.font.columnsPerEntry).flatMap fun bit =>
      bitDots s char foregroundColor backgroundColor row bit

variable {row bit scalarY scalarX x y : Nat}

theorem RoomyScreen.typing (hr : RoomyScreen p) (mode : Bool) (x y : Nat) :
    RoomyScreen (typing p mode x y) :=
  ⟨hr.stride, hr.size, hr.size32, hr.columns, hr.rows, hr.scale, hr.width, hr.height⟩

theorem pixelPosition_eq (hr : RoomyScreen p) (hx : x < lineColumns p) (hy : y ≤ textLines p)
    (hrow : row < p.font.rowsPerEntry) (hbit : bit < p.font.columnsPerEntry)
    (hscalarY : scalarY < p.font.scaleFactor) (hscalarX : scalarX < p.font.scaleFactor) :
    pixelPosition (typing p mode x y) row bit scalarY scalarX =
      (y * lineHeight p + (row * p.font.scaleFactor + scalarY),
        x * columnWidth p + (bit * p.font.scaleFactor + scalarX)) := by
  refine Prod.ext (pixel_row (hr.typing mode x y) ⟨hx, hy⟩ hrow hscalarY) ?_
  have hpixel := cell_lt hbit hscalarX
  have hlimit : lineColumns p * columnWidth p ≤ p.frameBufferWidth := Nat.div_mul_le_self _ _
  have hin : x * columnWidth p + (bit * p.font.scaleFactor + scalarX) < p.frameBufferWidth :=
    cell_within hx hlimit hpixel
  have hsmall := hr.width_small
  have hstart : x * p.font.columnsPerEntry * p.font.scaleFactor = x * columnWidth p :=
    Nat.mul_assoc _ _ _
  change wrap32 (wrap32 (x * p.font.columnsPerEntry * p.font.scaleFactor) +
    bit * p.font.scaleFactor + scalarX) = _
  rw [hstart, wrap32_of_lt (show x * columnWidth p < 2 ^ 32 by omega), wrap32_of_lt (by omega)]
  exact Nat.add_assoc _ _ _

theorem pixel_in_surface (h : ScreenMemory p) (hx : x < lineColumns p) (hy : y ≤ textLines p)
    {r k : Nat} (hr : r < lineHeight p) (hk : k < columnWidth p) :
    y * lineHeight p + r < (textLines p + 1) * lineHeight p ∧
      x * columnWidth p + k < p.pixelsPerScanLine := by
  have hlimit : lineColumns p * columnWidth p ≤ p.frameBufferWidth := Nat.div_mul_le_self _ _
  have hstride := h.roomy.stride
  exact ⟨index_lt (Nat.lt_succ_of_le hy) hr, (cell_within hx hlimit hk).trans_le hstride⟩

theorem drawPixel_paints (hs : s.protocol = typing p mode x y) (hx : x < lineColumns p)
    (hy : y ≤ textLines p) (hrow : row < p.font.rowsPerEntry) (hbit : bit < p.font.columnsPerEntry)
    (hscalarY : scalarY < p.font.scaleFactor) (hscalarX : scalarX < p.font.scaleFactor)
    (color : Nat) :
    Paints h s [⟨(pixelPosition s.protocol row bit scalarY scalarX).1,
        (pixelPosition s.protocol row bit scalarY scalarX).2, color⟩]
      (drawPixel (startX s.protocol) (startY s.protocol) color row bit s scalarY scalarX) := by
  obtain ⟨hinRow, hinColumn⟩ := pixel_in_surface h hx hy (cell_lt hrow hscalarY)
    (cell_lt hbit hscalarX)
  have hmemory : (drawPixel (startX s.protocol) (startY s.protocol) color row bit s scalarY
      scalarX).memory =
      storePixel (storePixel s.memory s.protocol.addrFrameBuffer
        (wrap32 ((pixelPosition s.protocol row bit scalarY scalarX).1 *
          s.protocol.pixelsPerScanLine +
          (pixelPosition s.protocol row bit scalarY scalarX).2)) color)
        s.protocol.addrRamFrameBuffer
        (wrap32 ((pixelPosition s.protocol row bit scalarY scalarX).1 *
          s.protocol.pixelsPerScanLine +
          (pixelPosition s.protocol row bit scalarY scalarX).2)) color := rfl
  refine ⟨rfl, rfl, rfl, ?_⟩
  rw [hmemory, hs, pixelPosition_eq h.roomy hx hy hrow hbit hscalarY hscalarX]
  exact h.painted_frame_ram hinRow hinColumn

def Ascii (c : CHAR) : Prop := c.toNat < 128

theorem toUINT_ascii (hc : Ascii c) : toUINT c = c.toNat := by
  have hmsb : c.msb = false := BitVec.msb_eq_false_iff_two_mul_lt.mpr (by
    unfold Ascii at hc
    omega)
  have hlt := c.isLt
  rw [toUINT, BitVec.signExtend_eq_setWidth_of_msb_false hmsb, BitVec.toNat_setWidth]
  exact Nat.mod_eq_of_lt (by omega)

theorem glyph_address (h : ScreenMemory p) (hc : Ascii c) (hrow : row < p.font.rowsPerEntry)
    (hbit : bit < p.font.columnsPerEntry) :
    let a := wrap64 (p.font.characterSet +
      wrap32 (toUINT c * (p.font.rowsPerEntry * ((p.font.columnsPerEntry + 7) / 8))) +
      wrap32 (row * ((p.font.columnsPerEntry + 7) / 8)) + bit / 8)
    p.font.characterSet ≤ a ∧ a < p.font.characterSet + 128 * p.font.rowsPerEntry := by
  have hglyph : c.toNat * p.font.rowsPerEntry + row < 128 * p.font.rowsPerEntry := index_lt hc hrow
  have hrows := h.fontRows
  have hstop := h.fontStop
  rw [h.roomy.columns] at hbit ⊢
  simp only [toUINT_ascii hc, Nat.mul_one, show (8 + 7) / 8 = 1 from rfl]
  rw [wrap32_of_lt (show c.toNat * p.font.rowsPerEntry < 2 ^ 32 by omega),
    wrap32_of_lt (show row < 2 ^ 32 by omega), Nat.div_eq_of_lt hbit, wrap64_of_lt (by omega)]
  omega

theorem bitColor_congr (h : ScreenMemory p) (foregroundColor backgroundColor : Nat)
    (hs : s.protocol.font = p.font) (hs₀ : s₀.protocol.font = p.font)
    (hmeltdown : s.bMeltdown = s₀.bMeltdown) (hbytes : SameFont p s₀.memory s.memory)
    (hc : Ascii c) (hrow : row < p.font.rowsPerEntry) (hbit : bit < p.font.columnsPerEntry) :
    bitColor s c foregroundColor backgroundColor row bit =
      bitColor s₀ c foregroundColor backgroundColor row bit := by
  obtain ⟨hlow, hhigh⟩ := glyph_address h hc hrow hbit
  have hbyte := hbytes _ hlow hhigh
  simp only [bitColor, hs, hs₀, hmeltdown, hbyte]

theorem drawBit_paints (h : ScreenMemory p) (foregroundColor backgroundColor : Nat)
    (hs₀ : s₀.protocol = typing p mode x y) (hx : x < lineColumns p) (hy : y ≤ textLines p)
    (hc : Ascii c) (hs : SameGlyphs p s₀ s) (hrow : row < p.font.rowsPerEntry)
    (hbit : bit < p.font.columnsPerEntry) :
    Paints h s (bitDots s₀ c foregroundColor backgroundColor row bit)
      (drawBit c foregroundColor backgroundColor (startX s₀.protocol) (startY s₀.protocol) row s
        bit) := by
  have hfont : s₀.protocol.font = p.font := by rw [hs₀]; rfl
  have hcolor := bitColor_congr h foregroundColor backgroundColor
    ((congrArg _ hs.protocol).trans hfont) hfont hs.bMeltdown hs.font hc hrow hbit
  have hloop : drawBit c foregroundColor backgroundColor (startX s₀.protocol) (startY s₀.protocol)
      row s bit =
      (List.range s.protocol.font.scaleFactor).foldl (fun t scalarY =>
        (List.range s.protocol.font.scaleFactor).foldl (fun t scalarX =>
          drawPixel (startX s₀.protocol) (startY s₀.protocol)
            (bitColor s c foregroundColor backgroundColor row bit) row bit t scalarY scalarX) t)
        s := rfl
  rw [hloop, hcolor, hs.protocol, bitDots]
  refine foldl_paints _ (fun t ht scalarY hscalarY => ?_) hs
  refine foldl_paints _ (fun t ht scalarX hscalarX => ?_) ht
  rw [← ht.protocol]
  rw [hfont] at hscalarY hscalarX
  exact drawPixel_paints (ht.protocol.trans hs₀) hx hy hrow hbit hscalarY hscalarX _

theorem SameGlyphs.refl (p : KrDisplaywideTextProtocolState) (s : DwtpSystem) : SameGlyphs p s s :=
  ⟨rfl, rfl, fun _ _ _ => rfl⟩

theorem drawGlyph_paints (h : ScreenMemory p) (foregroundColor backgroundColor : Nat)
    (hs : s.protocol = typing p mode x y) (hx : x < lineColumns p) (hy : y ≤ textLines p)
    (hc : Ascii c) :
    Paints h s (glyphDots s c foregroundColor backgroundColor)
      (drawGlyph s c foregroundColor backgroundColor) := by
  have hfont : s.protocol.font = p.font := by rw [hs]; rfl
  refine foldl_paints _ (fun t ht row hrow => ?_) (SameGlyphs.refl p s)
  refine foldl_paints _ (fun t ht bit hbit => ?_) ht
  rw [hfont] at hrow hbit
  exact drawBit_paints h foregroundColor backgroundColor hs hx hy hc ht hrow hbit

theorem mem_glyphDots {d : Dot} (hr : RoomyScreen p) (hs : s.protocol = typing p mode x y)
    (hx : x < lineColumns p) (hy : y ≤ textLines p) :
    d ∈ glyphDots s c foregroundColor backgroundColor ↔ ∃ row < p.font.rowsPerEntry,
      ∃ bit < p.font.columnsPerEntry, ∃ scalarY < p.font.scaleFactor,
      ∃ scalarX < p.font.scaleFactor,
        d = ⟨y * lineHeight p + (row * p.font.scaleFactor + scalarY),
          x * columnWidth p + (bit * p.font.scaleFactor + scalarX),
          bitColor s c foregroundColor backgroundColor row bit⟩ := by
  have hfont : s.protocol.font = p.font := by rw [hs]; rfl
  simp only [glyphDots, bitDots, List.mem_flatMap, List.mem_range, List.mem_singleton, hfont]
  constructor
  · rintro ⟨row, hrow, bit, hbit, scalarY, hscalarY, scalarX, hscalarX, rfl⟩
    refine ⟨row, hrow, bit, hbit, scalarY, hscalarY, scalarX, hscalarX, ?_⟩
    rw [hs, pixelPosition_eq hr hx hy hrow hbit hscalarY hscalarX]
  · rintro ⟨row, hrow, bit, hbit, scalarY, hscalarY, scalarX, hscalarX, rfl⟩
    refine ⟨row, hrow, bit, hbit, scalarY, hscalarY, scalarX, hscalarX, ?_⟩
    rw [hs, pixelPosition_eq hr hx hy hrow hbit hscalarY hscalarX]

variable {k j r i old : Nat}

theorem repainted_glyph (hr : RoomyScreen p) (hs : s.protocol = typing p mode x y)
    (hx : x < lineColumns p) (hy : y ≤ textLines p) (hrow : r < lineHeight p)
    (hcolumn : i < columnWidth p) :
    repainted (glyphDots s c foregroundColor backgroundColor) (y * lineHeight p + r)
      (x * columnWidth p + i) old = glyphTile s c foregroundColor backgroundColor r i := by
  have hfont : s.protocol.font = p.font := by rw [hs]; rfl
  have hdiv : ∀ {n a b : Nat}, b < n → (a * n + b) / n = a := fun {n a b} hb => by
    rw [Nat.mul_comm, Nat.mul_add_div (Nat.zero_lt_of_lt hb), Nat.div_eq_of_lt hb, Nat.add_zero]
  have hsplit : ∀ n, n / p.font.scaleFactor * p.font.scaleFactor + n % p.font.scaleFactor = n :=
    fun n => Nat.div_add_mod' n _
  refine repainted_of_at (fun d hd hat => ?_) ?_
  · obtain ⟨row, _, bit, _, scalarY, hscalarY, scalarX, hscalarX, rfl⟩ :=
      (mem_glyphDots hr hs hx hy).mp hd
    have hr' : row * p.font.scaleFactor + scalarY = r := Nat.add_left_cancel hat.1
    have hi' : bit * p.font.scaleFactor + scalarX = i := Nat.add_left_cancel hat.2
    rw [glyphTile, hfont, ← hr', ← hi', hdiv hscalarY, hdiv hscalarX]
  · refine ⟨_, (mem_glyphDots hr hs hx hy).mpr ⟨r / p.font.scaleFactor,
      Nat.div_lt_of_lt_mul ?_, i / p.font.scaleFactor, Nat.div_lt_of_lt_mul ?_,
      r % p.font.scaleFactor, Nat.mod_lt _ hr.scale, i % p.font.scaleFactor,
      Nat.mod_lt _ hr.scale, rfl⟩, ?_⟩
    · rw [Nat.mul_comm]
      exact hrow
    · rw [Nat.mul_comm]
      exact hcolumn
    · rw [hsplit, hsplit]
      exact ⟨rfl, rfl⟩

theorem repainted_other (hr : RoomyScreen p) (hs : s.protocol = typing p mode x y)
    (hx : x < lineColumns p) (hy : y ≤ textLines p) (hrow : r < lineHeight p)
    (hcolumn : i < columnWidth p) (hother : ¬ (k = y ∧ j = x)) :
    repainted (glyphDots s c foregroundColor backgroundColor) (k * lineHeight p + r)
      (j * columnWidth p + i) old = old := by
  refine repainted_of_not_at fun d hd hat => ?_
  obtain ⟨row, hin, bit, hbit, scalarY, hscalarY, scalarX, hscalarX, rfl⟩ :=
    (mem_glyphDots hr hs hx hy).mp hd
  have hline := index_inj (cell_lt hin hscalarY) hrow hat.1
  have hcell := index_inj (cell_lt hbit hscalarX) hcolumn hat.2
  exact hother ⟨hline.1.symm, hcell.1.symm⟩

end Ych.Dwtp
