import Ych.Base.ByteMemory
import Ych.CPU.Spinlock
import Ych.KRTL.Krnlstring

/-! Text on the frame buffer: glyphs drawn at a cursor, line breaks and scrolling, and the
formatter that prints as it goes, all under one spinlock. -/
namespace Ych.Dwtp
open Words Bitmap ByteMemory CPU Krnlstring

def krdwtpMakeColor (r g b a : Nat) : Nat :=
  ((a &&& 0xFF) <<< 24) ||| ((r &&& 0xFF) <<< 16) ||| ((g &&& 0xFF) <<< 8) ||| (b &&& 0xFF)

def KRDWTP_BACKGROUND : Nat := krdwtpMakeColor 0x00 0x00 0x00 0xFF
def KRDWTP_COLOR_WHITE : Nat := krdwtpMakeColor 0xFF 0xFF 0xFF 0xFF
def KRDWTP_COLOR_DARK_PURPLE : Nat := krdwtpMakeColor 0x4B 0x00 0x6E 0xFF

structure KrDisplaywideTextProtocolFont where
  characterSet : Nat
  numberOfEntries : Nat
  columnsPerEntry : Nat
  rowsPerEntry : Nat
  scaleFactor : Nat
  bDirectionBit : Bool

structure KrDisplaywideTextProtocolState where
  frameBufferSize : Nat
  frameBufferWidth : Nat
  frameBufferHeight : Nat
  pixelsPerScanLine : Nat
  cursorX : Nat
  cursorY : Nat
  addrFrameBuffer : Nat
  addrRamFrameBuffer : Nat
  bytesPerPixel : Nat
  font : KrDisplaywideTextProtocolFont
  bUppercaseMode : Bool

structure PixelStore where
  row : Nat
  column : Nat
  color : Nat

/-- The protocol's state, the processor with the lock, and memory; `stores` records the pixels of
glyphs and nothing reads it. -/
structure DwtpSystem where
  protocol : KrDisplaywideTextProtocolState
  cpu : Processor
  memory : Bytes
  bMeltdown : Bool
  stores : List PixelStore

inductive Stop where
  | spins
  | divideError
  deriving DecidableEq

def sg_DwtpSpinlock : Nat := 0

def acquireDwtp (s : DwtpSystem) : Except Stop DwtpSystem :=
  match acquireOrWaitSpinlock s.cpu sg_DwtpSpinlock with
  | none => .error .spins
  | some cpu => .ok { s with cpu := cpu }

def relinquishDwtp (s : DwtpSystem) : DwtpSystem :=
  { s with cpu := relinquishSpinlock s.cpu sg_DwtpSpinlock }

def DwtpSystem.setCursor (s : DwtpSystem) (x y : Nat) : DwtpSystem :=
  { s with protocol := { s.protocol with cursorX := x, cursorY := y } }

def moveBuffer (m : Bytes) (dest src n : Nat) : Bytes := fun i =>
  if dest ≤ i ∧ i < dest + n then m (src + (i - dest)) else m i

def storePixel (m : Bytes) (buffer index color : Nat) : Bytes :=
  store m (wrap64 (buffer + 4 * index)) 4 color

def dwtpReplicateRamFrbufToVram (s : DwtpSystem) : DwtpSystem :=
  { s with
    memory := moveBuffer s.memory s.protocol.addrFrameBuffer s.protocol.addrRamFrameBuffer
      s.protocol.frameBufferSize }

def clearFrameBuffer (p : KrDisplaywideTextProtocolState) (clearColor : Nat) (m : Bytes) : Bytes :=
  (List.range p.frameBufferHeight).foldl (fun m y =>
    (List.range p.frameBufferWidth).foldl (fun m x =>
      let index := wrap32 (y * p.pixelsPerScanLine + x)
      storePixel (storePixel m p.addrRamFrameBuffer index clearColor)
        p.addrFrameBuffer index clearColor) m) m

def krdwtpResetState (s : DwtpSystem) (clearColor : Nat) : Except Stop DwtpSystem := do
  let s ← acquireDwtp s
  let s := s.setCursor 0 0
  return relinquishDwtp { s with memory := clearFrameBuffer s.protocol clearColor s.memory }

def krdwtpScroll_NoSpin (s : DwtpSystem) : DwtpSystem :=
  let p := s.protocol
  if p.cursorY = 0 then s
  else
    let dwPhysStride := wrap32 (p.pixelsPerScanLine * p.bytesPerPixel)
    let dwEntrySize := wrap32 (p.font.rowsPerEntry * p.font.scaleFactor)
    let dwLogicalStride := wrap32 (dwEntrySize * dwPhysStride)
    let moved := moveBuffer s.memory p.addrRamFrameBuffer
      (wrap64 (p.addrRamFrameBuffer + dwLogicalStride)) (wrap32 (p.cursorY * dwLogicalStride))
    let cleared := fill moved
      (wrap64 (p.addrRamFrameBuffer + wrap32 (p.cursorY * dwLogicalStride))) dwLogicalStride 0#8
    let s := dwtpReplicateRamFrbufToVram { s with memory := cleared }
    s.setCursor 0 (p.cursorY - 1)

def krdwtpScroll (s : DwtpSystem) : Except Stop DwtpSystem := do
  let s ← acquireDwtp s
  return relinquishDwtp (krdwtpScroll_NoSpin s)

def toUINT (c : CHAR) : Nat := (c.signExtend 32).toNat

def drawPixel (dwStartX dwStartY color row bit : Nat) (s : DwtpSystem) (scalarY scalarX : Nat) :
    DwtpSystem :=
  let p := s.protocol
  let framebufferOffsetY := wrap32 (dwStartY + row * p.font.scaleFactor + scalarY)
  let framebufferOffsetX := wrap32 (dwStartX + bit * p.font.scaleFactor + scalarX)
  let index := wrap32 (framebufferOffsetY * p.pixelsPerScanLine + framebufferOffsetX)
  { s with
    memory := storePixel (storePixel s.memory p.addrFrameBuffer index color)
      p.addrRamFrameBuffer index color
    stores := s.stores ++ [⟨framebufferOffsetY, framebufferOffsetX, color⟩] }

/-- The pixels of one column of a glyph's row; a shift by more than 31 is taken modulo 32. -/
def drawBit (char : CHAR) (foregroundColor backgroundColor dwStartX dwStartY row : Nat)
    (s : DwtpSystem) (bit : Nat) : DwtpSystem :=
  let font := s.protocol.font
  let dwBytesPerGlyph := (font.columnsPerEntry + 7) / 8
  let dwGlyphSize := font.rowsPerEntry * dwBytesPerGlyph
  let pGlyph := font.characterSet + wrap32 (toUINT char * dwGlyphSize)
  let pRow := pGlyph + wrap32 (row * dwBytesPerGlyph)
  let iBit := if font.bDirectionBit then (7 + 256 - bit) % 256 else bit % 8
  let pxlit := hasFlag (s.memory (wrap64 (pRow + bit / 8))).toNat (1 <<< (iBit % 32))
  let color := if pxlit then foregroundColor
    else if s.bMeltdown then KRDWTP_COLOR_DARK_PURPLE else backgroundColor
  (List.range font.scaleFactor).foldl (fun s scalarY =>
    (List.range font.scaleFactor).foldl (fun s scalarX =>
      drawPixel dwStartX dwStartY color row bit s scalarY scalarX) s) s

def drawGlyph (s : DwtpSystem) (char : CHAR) (foregroundColor backgroundColor : Nat) :
    DwtpSystem :=
  let p := s.protocol
  let dwStartX := wrap32 (p.cursorX * p.font.columnsPerEntry * p.font.scaleFactor)
  let dwStartY := wrap32 (p.cursorY * p.font.rowsPerEntry * p.font.scaleFactor)
  (List.range p.font.rowsPerEntry).foldl (fun s row =>
    (List.range p.font.columnsPerEntry).foldl
      (drawBit char foregroundColor backgroundColor dwStartX dwStartY row) s) s

def Shown (p : KrDisplaywideTextProtocolState) (c : CHAR) : Prop :=
  p.addrFrameBuffer ≠ 0 ∧ p.font.characterSet ≠ 0 ∧ p.font.numberOfEntries < toUINT c

instance (p : KrDisplaywideTextProtocolState) (c : CHAR) : Decidable (Shown p c) :=
  inferInstanceAs (Decidable (_ ∧ _ ∧ _))

def cellWidth (p : KrDisplaywideTextProtocolState) : Nat :=
  wrap32 (p.font.columnsPerEntry * p.font.scaleFactor)

def cellHeight (p : KrDisplaywideTextProtocolState) : Nat :=
  wrap32 (p.font.rowsPerEntry * p.font.scaleFactor)

def nextLine (scroll : DwtpSystem → Except Stop DwtpSystem) (s : DwtpSystem) :
    Except Stop DwtpSystem :=
  let s := s.setCursor 0 (wrap32 (s.protocol.cursorY + 1))
  if cellHeight s.protocol = 0 then .error .divideError
  else if s.protocol.cursorY > s.protocol.frameBufferHeight / cellHeight s.protocol then scroll s
  else .ok s

def toUpper (p : KrDisplaywideTextProtocolState) (c : CHAR) : CHAR :=
  if p.bUppercaseMode ∧ (ch 'a').sle c ∧ c.sle (ch 'z') then c - (ch 'a' - ch 'A') else c

/-- `KrdwtpOutColoredCharacter_NoSpin` with `wrapScroll` for the call of `KrdwtpScroll` in it. -/
def outCharacterWith (wrapScroll : DwtpSystem → Except Stop DwtpSystem) (s : DwtpSystem)
    (c : CHAR) (foregroundColor backgroundColor : Nat) : Except Stop DwtpSystem :=
  if ¬Shown s.protocol c then .ok s
  else if c = ch '\n' then nextLine (fun s => .ok (krdwtpScroll_NoSpin s)) s
  else
    let s := drawGlyph s (toUpper s.protocol c) foregroundColor backgroundColor
    let s := s.setCursor (wrap32 (s.protocol.cursorX + 1)) s.protocol.cursorY
    if cellWidth s.protocol = 0 then .error .divideError
    else if s.protocol.cursorX ≥ s.protocol.frameBufferWidth / cellWidth s.protocol then
      nextLine wrapScroll s
    else .ok s

def krdwtpOutColoredCharacter_NoSpin (s : DwtpSystem) (c : CHAR)
    (foregroundColor backgroundColor : Nat) : Except Stop DwtpSystem :=
  outCharacterWith krdwtpScroll s c foregroundColor backgroundColor

def krdwtpOutColoredCharacter (s : DwtpSystem) (c : CHAR)
    (foregroundColor backgroundColor : Nat) : Except Stop DwtpSystem := do
  let s ← acquireDwtp s
  let s ← krdwtpOutColoredCharacter_NoSpin s c foregroundColor backgroundColor
  return relinquishDwtp s

def krdwtpOutCharacter_NoSpin (s : DwtpSystem) (c : CHAR) : Except Stop DwtpSystem :=
  krdwtpOutColoredCharacter_NoSpin s c KRDWTP_COLOR_WHITE KRDWTP_BACKGROUND

section
variable {m : Type → Type} [Monad m] {σ : Type} (out : σ → CHAR → m σ)

def outText : List CHAR → σ → INT → m (INT × σ)
  | [], s, nWritten => pure (nWritten, s)
  | c :: pText, s, nWritten => do
    let s ← out s c
    outText pText s (nWritten + 1)

def outCounted (pText : List CHAR) (s : σ) (nwritten : INT) : m (INT × σ) := do
  let (n, s) ← outText out pText s 0
  return (nwritten + n, s)

def outFormat : List CHAR → VaList → σ → INT → m (INT × σ)
  | [], _, s, nwritten => pure (nwritten, s)
  | c :: pFmt, args, s, nwritten =>
    if c ≠ ch '%' then do
      let s ← out s c
      outFormat pFmt args s (nwritten + 1)
    else
      match pFmt with
      | [] => pure (-1, s)
      | d :: pFmt =>
        if d = ch '%' then do
          let s ← out s (ch '%')
          outFormat pFmt args s (nwritten + 1)
        else if d = ch 'c' then do
          let s ← out s (args.int.setWidth 8)
          outFormat pFmt args.rest s (nwritten + 1)
        else if d = ch 'b' then do
          let (nwritten, s) ← outCounted out
            (chars (if args.int ≠ 0 then "true" else "false")) s nwritten
          outFormat pFmt args.rest s nwritten
        else if d = ch 's' then do
          let str := if (args 0).word = 0 then chars "(NULL)" else (args 0).string.text
          let (nwritten, s) ← outCounted out str s nwritten
          outFormat pFmt args.rest s nwritten
        else if d = ch 'd' ∨ d = ch 'i' then do
          let buf := krtlSignedToString args.int.toInt KRTL_RADIX_DECIMAL KRTL_HEX_UPPERCASE
          let (nwritten, s) ← outCounted out buf s nwritten
          outFormat pFmt args.rest s nwritten
        else if d = ch 'u' then do
          let buf := krtlUnsignedToString args.int.toNat KRTL_RADIX_DECIMAL KRTL_HEX_UPPERCASE
          let (nwritten, s) ← outCounted out buf s nwritten
          outFormat pFmt args.rest s nwritten
        else if d = ch 'o' then do
          let buf := krtlSignedToString args.int.toNat KRTL_RADIX_OCTAL KRTL_HEX_UPPERCASE
          let (nwritten, s) ← outCounted out buf s nwritten
          outFormat pFmt args.rest s nwritten
        else if d = ch 'X' ∨ d = ch 'x' then do
          let buf := krtlUnsignedToString args.int.toNat KRTL_RADIX_HEXADECIMAL KRTL_HEX_UPPERCASE
          let (nwritten, s) ← outCounted out buf s nwritten
          outFormat pFmt args.rest s nwritten
        else if d = ch 'p' then do
          let buf := krtlUnsignedToString args.quadword KRTL_RADIX_HEXADECIMAL KRTL_HEX_UPPERCASE
          let (nwritten, s) ← outCounted out (chars "0x") s nwritten
          let (nwritten, s) ← outCounted out buf s nwritten
          outFormat pFmt args.rest s nwritten
        else if d = ch 'R' then
          match pFmt with
          | [] => pure (-1, s)
          | e :: pFmt =>
            if e = ch 'u' then do
              let buf := krtlUnsignedToString args.quadword KRTL_RADIX_DECIMAL KRTL_HEX_UPPERCASE
              let (nwritten, s) ← outCounted out buf s nwritten
              outFormat pFmt args.rest s nwritten
            else if e = ch 'X' ∨ e = ch 'x' then do
              let buf := krtlUnsignedToString args.quadword KRTL_RADIX_HEXADECIMAL
                KRTL_HEX_UPPERCASE
              let (nwritten, s) ← outCounted out buf s nwritten
              outFormat pFmt args.rest s nwritten
            else pure (-1, s)
        else pure (-1, s)

end

def krdwtpOutColoredText_NoSpin (s : DwtpSystem) (pText : CString)
    (foregroundColor backgroundColor : Nat) : Except Stop (INT × DwtpSystem) :=
  outText (fun s c => krdwtpOutColoredCharacter_NoSpin s c foregroundColor backgroundColor)
    pText.text s 0

def krdwtpOutColoredText (s : DwtpSystem) (pText : CString)
    (foregroundColor backgroundColor : Nat) : Except Stop (INT × DwtpSystem) := do
  let s ← acquireDwtp s
  let (result, s) ← krdwtpOutColoredText_NoSpin s pText foregroundColor backgroundColor
  return (result, relinquishDwtp s)

def krdwtpOutFormatTextVariadic (s : DwtpSystem) (pFmt : CString) (args : VaList) :
    Except Stop (INT × DwtpSystem) := do
  let s ← acquireDwtp s
  let (result, s) ← outFormat krdwtpOutCharacter_NoSpin pFmt.text args s 0
  return (result, relinquishDwtp s)

def formattedText (pFmt : CString) (args : VaList) : INT × List CHAR :=
  Id.run (outFormat (fun passed c => pure (passed ++ [c])) pFmt.text args [] 0)

def positions (s : DwtpSystem) : List (Nat × Nat) := s.stores.map fun e => (e.row, e.column)

/-- Pixels were drawn at the positions `l`, and nothing else but memory was written. -/
structure Drawn (s : DwtpSystem) (l : List (Nat × Nat)) (s' : DwtpSystem) : Prop where
  protocol : s'.protocol = s.protocol
  cpu : s'.cpu = s.cpu
  stores : positions s' = positions s ++ l

theorem foldl_drawn {α : Type*} {step : DwtpSystem → α → DwtpSystem} {g : α → List (Nat × Nat)}
    {p : KrDisplaywideTextProtocolState}
    (hstep : ∀ s a, s.protocol = p → Drawn s (g a) (step s a)) (l : List α) (s : DwtpSystem)
    (hs : s.protocol = p) : Drawn s (l.flatMap g) (l.foldl step s) := by
  induction l generalizing s with
  | nil => exact ⟨rfl, rfl, by simp⟩
  | cons a l ih =>
    have hfirst := hstep s a hs
    have hrest := ih (step s a) (hfirst.protocol.trans hs)
    refine ⟨hrest.protocol.trans hfirst.protocol, hrest.cpu.trans hfirst.cpu, ?_⟩
    rw [List.foldl_cons, hrest.stores, hfirst.stores, List.flatMap_cons, List.append_assoc]

def pixelPosition (p : KrDisplaywideTextProtocolState) (row bit scalarY scalarX : Nat) :
    Nat × Nat :=
  (wrap32 (wrap32 (p.cursorY * p.font.rowsPerEntry * p.font.scaleFactor) +
      row * p.font.scaleFactor + scalarY),
    wrap32 (wrap32 (p.cursorX * p.font.columnsPerEntry * p.font.scaleFactor) +
      bit * p.font.scaleFactor + scalarX))

def glyphPositions (p : KrDisplaywideTextProtocolState) : List (Nat × Nat) :=
  (List.range p.font.rowsPerEntry).flatMap fun row =>
    (List.range p.font.columnsPerEntry).flatMap fun bit =>
      (List.range p.font.scaleFactor).flatMap fun scalarY =>
        (List.range p.font.scaleFactor).flatMap fun scalarX =>
          [pixelPosition p row bit scalarY scalarX]

theorem drawGlyph_drawn (s : DwtpSystem) (char : CHAR) (foregroundColor backgroundColor : Nat) :
    Drawn s (glyphPositions s.protocol)
      (drawGlyph s char foregroundColor backgroundColor) := by
  refine foldl_drawn (fun x row hx => ?_) _ s rfl
  refine foldl_drawn (fun x bit hx => ?_) _ x hx
  rw [drawBit, hx]
  refine foldl_drawn (fun x scalarY hx => ?_) _ x hx
  refine foldl_drawn (fun x scalarX hx => ?_) _ x hx
  refine ⟨rfl, rfl, ?_⟩
  rw [positions, drawPixel, List.map_append, hx]
  rfl

/-- A line break moves the cursor further than one line below the last. -/
def BehindLast (p : KrDisplaywideTextProtocolState) : Prop :=
  p.frameBufferHeight / cellHeight p < wrap32 (p.cursorY + 1)

instance (p : KrDisplaywideTextProtocolState) : Decidable (BehindLast p) :=
  inferInstanceAs (Decidable (_ < _))

def breakLine (p : KrDisplaywideTextProtocolState) : KrDisplaywideTextProtocolState :=
  { p with
    cursorX := 0
    cursorY := if BehindLast p then wrap32 (p.cursorY + 1) - 1 else wrap32 (p.cursorY + 1) }

def FillsLine (p : KrDisplaywideTextProtocolState) : Prop :=
  p.frameBufferWidth / cellWidth p ≤ wrap32 (p.cursorX + 1)

instance (p : KrDisplaywideTextProtocolState) : Decidable (FillsLine p) :=
  inferInstanceAs (Decidable (_ ≤ _))

def stepRight (p : KrDisplaywideTextProtocolState) : KrDisplaywideTextProtocolState :=
  { p with cursorX := wrap32 (p.cursorX + 1) }

def cursorAfter (p : KrDisplaywideTextProtocolState) (c : CHAR) :
    KrDisplaywideTextProtocolState :=
  if ¬Shown p c then p
  else if c = ch '\n' then breakLine p
  else if FillsLine p then breakLine p
  else stepRight p

theorem scroll_protocol {s : DwtpSystem} (h : s.protocol.cursorY ≠ 0) :
    (krdwtpScroll_NoSpin s).protocol =
      { s.protocol with cursorX := 0, cursorY := s.protocol.cursorY - 1 } := by
  rw [krdwtpScroll_NoSpin, if_neg h]
  rfl

theorem scroll_cpu (s : DwtpSystem) : (krdwtpScroll_NoSpin s).cpu = s.cpu := by
  rw [krdwtpScroll_NoSpin]
  split <;> rfl

theorem scroll_stores (s : DwtpSystem) : (krdwtpScroll_NoSpin s).stores = s.stores := by
  rw [krdwtpScroll_NoSpin]
  split <;> rfl

theorem nextLine_eq (scroll : DwtpSystem → Except Stop DwtpSystem) (s : DwtpSystem)
    (h : cellHeight s.protocol ≠ 0) :
    nextLine scroll s =
      if BehindLast s.protocol then scroll (s.setCursor 0 (wrap32 (s.protocol.cursorY + 1)))
      else .ok (s.setCursor 0 (wrap32 (s.protocol.cursorY + 1))) := if_neg h

theorem nextLine_spec (s : DwtpSystem) (h : cellHeight s.protocol ≠ 0) :
    ∃ s', nextLine (fun s => .ok (krdwtpScroll_NoSpin s)) s = .ok s' ∧
      s'.protocol = breakLine s.protocol ∧ s'.cpu = s.cpu ∧ s'.stores = s.stores := by
  let x := s.setCursor 0 (wrap32 (s.protocol.cursorY + 1))
  rw [nextLine_eq _ s h, breakLine]
  by_cases hlast : BehindLast s.protocol
  · have hy : x.protocol.cursorY ≠ 0 := Nat.ne_of_gt (Nat.zero_lt_of_lt hlast)
    rw [if_pos hlast, if_pos hlast]
    exact ⟨_, rfl, scroll_protocol hy, scroll_cpu x, scroll_stores x⟩
  · rw [if_neg hlast, if_neg hlast]
    exact ⟨_, rfl, rfl, rfl, rfl⟩

theorem outCharacterWith_drawn (wrapScroll : DwtpSystem → Except Stop DwtpSystem)
    {s : DwtpSystem} {c : CHAR} (hshown : Shown s.protocol c) (hglyph : c ≠ ch '\n')
    (foregroundColor backgroundColor : Nat) :
    ∃ x, x.protocol = stepRight s.protocol ∧ x.cpu = s.cpu ∧
      positions x = positions s ++ glyphPositions s.protocol ∧
      outCharacterWith wrapScroll s c foregroundColor backgroundColor =
        if cellWidth s.protocol = 0 then .error .divideError
        else if FillsLine s.protocol then nextLine wrapScroll x
        else .ok x := by
  obtain ⟨hp, hcpu, hpos⟩ :=
    drawGlyph_drawn s (toUpper s.protocol c) foregroundColor backgroundColor
  let y := drawGlyph s (toUpper s.protocol c) foregroundColor backgroundColor
  let x := y.setCursor (wrap32 (y.protocol.cursorX + 1)) y.protocol.cursorY
  have hx : x.protocol = stepRight s.protocol := by
    have hy : y.protocol = s.protocol := hp
    change { y.protocol with cursorX := wrap32 (y.protocol.cursorX + 1) } = _
    rw [hy, stepRight]
  refine ⟨x, hx, hcpu, hpos, ?_⟩
  rw [outCharacterWith, if_neg (not_not_intro hshown), if_neg hglyph]
  change (if cellWidth x.protocol = 0 then Except.error Stop.divideError
    else if x.protocol.cursorX ≥ x.protocol.frameBufferWidth / cellWidth x.protocol then
      nextLine wrapScroll x
    else .ok x) = _
  rw [hx]
  rfl

/-- 640 by 400 pixels, 80 columns and 25 lines of text, with the cursor one line below these. -/
def fullScreen : DwtpSystem where
  protocol :=
    { frameBufferSize := 1024000
      frameBufferWidth := 640
      frameBufferHeight := 400
      pixelsPerScanLine := 640
      cursorX := 79
      cursorY := 25
      addrFrameBuffer := 0xFFFFFFFFC0000000
      addrRamFrameBuffer := 0xFFFFFFFF80400000
      bytesPerPixel := 4
      font :=
        { characterSet := 0xFFFFFFFF80010000
          numberOfEntries := 0
          columnsPerEntry := 8
          rowsPerEntry := 16
          scaleFactor := 1
          bDirectionBit := true }
      bUppercaseMode := false }
  cpu := freeProcessor
  memory := fun _ => 0
  bMeltdown := false
  stores := []

end Ych.Dwtp
