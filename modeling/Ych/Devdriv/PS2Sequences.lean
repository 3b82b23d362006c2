import Ych.Devdriv.PS2Keyboard

/-! Complete key sequences: the keyboard decodes every list of them into its key events and is
idle again at the end. -/
namespace Ych.Devdriv
open Words HumanInterface Transducers

abbrev StandardCode : Type := { c : UInt8 // Present StandardScancodeToKeycodeMap c }

abbrev ExtendedCode : Type := { c : UInt8 // Present ExtendedScancodeToKeycodeMap c }

def StandardCode.keycode (c : StandardCode) : Nat :=
  StandardScancodeToKeycodeMap.getD c.val.toNat KC_INVALID

def ExtendedCode.keycode (c : ExtendedCode) : Nat :=
  ExtendedScancodeToKeycodeMap.getD c.val.toNat KC_INVALID

inductive KeySequence where
  | make (c : StandardCode)
  | release (c : StandardCode)
  | makeExtended (c : ExtendedCode)
  | releaseExtended (c : ExtendedCode)
  | printScreenPress
  | printScreenRelease
  | pause

namespace KeySequence

def bytes : KeySequence → List UInt8
  | make c => [c.val]
  | release c => [PS2_BREAK_PREFIX, c.val]
  | makeExtended c => [PS2_XSCANCODE, c.val]
  | releaseExtended c => [PS2_XSCANCODE, PS2_BREAK_PREFIX, c.val]
  | printScreenPress => PRINT_SCREEN_PRESS
  | printScreenRelease => PRINT_SCREEN_RELEASE
  | pause => PAUSE_PRESSED

def events : KeySequence → List (Nat × Nat)
  | make c => [(c.keycode, KS_PRESSED)]
  | release c => [(c.keycode, KS_RELEASED)]
  | makeExtended c => [(c.keycode, KS_PRESSED)]
  | releaseExtended c => [(c.keycode, KS_RELEASED)]
  | printScreenPress => [(KC_PRINT_SCREEN, KS_PRESSED)]
  | printScreenRelease => [(KC_PRINT_SCREEN, KS_RELEASED)]
  | pause => [(KC_PAUSE, KS_PRESSED), (KC_PAUSE, KS_RELEASED)]

end KeySequence

variable (img : Image) {k : PS2Keyboard}

/-- No key of a table is a prefix byte. -/
structure PlainCode (data : UInt8) : Prop where
  extended : data ≠ PS2_XSCANCODE
  broken : data ≠ PS2_BREAK_PREFIX
  pause : data ≠ 0xE1

theorem PlainCode.of_lt {data : UInt8} (h : data.toNat < 0xE0) : PlainCode data := by
  refine ⟨?_, ?_, ?_⟩
  · rintro rfl
    exact absurd h (by decide)
  · rintro rfl
    exact absurd h (by decide)
  · rintro rfl
    exact absurd h (by decide)

theorem StandardCode.plain (c : StandardCode) : PlainCode c.val := by
  have hlt := c.property.lt_length
  rw [standard_length] at hlt
  exact .of_lt (by omega)

theorem ExtendedCode.plain (c : ExtendedCode) : PlainCode c.val := by
  have hlt := c.property.lt_length
  rw [extended_length] at hlt
  exact .of_lt (by omega)

theorem ExtendedCode.ne_print_screen (c : ExtendedCode) : c.val ≠ 0x12 ∧ c.val ≠ 0x7C := by
  constructor
  · intro h
    exact absurd (h ▸ c.property) (by decide)
  · intro h
    exact absurd (h ▸ c.property) (by decide)

theorem switch_standard (hlisten : k.listen = 0 ∨ k.listen = LISTEN_BROKEN) {data : UInt8}
    (hplain : PlainCode data) : ps2Switch img k data = ps2Key img k data := by
  have hext : ¬ hasFlag k.listen LISTEN_EXTENDED := by
    cases hlisten with
    | inl h => rw [h]; decide
    | inr h => rw [h]; decide
  have hboth : k.listen &&& (LISTEN_EXTENDED ||| LISTEN_BROKEN) ≠
      LISTEN_EXTENDED ||| LISTEN_BROKEN := by
    cases hlisten with
    | inl h => rw [h]; decide
    | inr h => rw [h]; decide
  rw [ps2Switch, if_neg hplain.extended, if_neg hplain.broken, if_neg hplain.pause]
  simp only [hext, hboth, and_false, Bool.false_eq_true, if_false, ite_self]

theorem switch_extended (c : ExtendedCode) :
    ps2Switch img k c.val = ps2Key img k c.val := by
  have hplain := c.plain
  obtain ⟨h₁, h₂⟩ := c.ne_print_screen
  rw [ps2Switch, if_neg hplain.extended, if_neg hplain.broken, if_neg h₁, if_neg h₂,
    if_neg hplain.pause]

theorem ps2Key_view (k : PS2Keyboard) (data : UInt8) :
    (ps2Key img k data).2.map view =
      [(ps2ScancodeToKeycode img (hasFlag k.listen LISTEN_EXTENDED) data,
        if hasFlag k.listen LISTEN_BROKEN then KS_RELEASED else KS_PRESSED)] := rfl

theorem standard_keycode (c : StandardCode) :
    ps2ScancodeToKeycode img false c.val = c.keycode := by
  rw [ps2ScancodeToKeycode, if_neg (by decide), c.property.lookup, StandardCode.keycode]

theorem extended_keycode (c : ExtendedCode) :
    ps2ScancodeToKeycode img true c.val = c.keycode := by
  rw [ps2ScancodeToKeycode, if_pos rfl, c.property.lookup, ExtendedCode.keycode]

theorem feed_silent {k' : PS2Keyboard} {data : UInt8} (hmode : modeOf k.listen = none)
    (hstep : ps2Switch img k data = (k', [])) (word : List UInt8) :
    ps2Feed img k (data :: word) = ps2Feed img k' word := by
  rw [ps2Feed, feed_cons, interrupt_no_mode img hmode, hstep]
  rfl

theorem feed_xscancode (hmode : modeOf k.listen = none) (word : List UInt8) :
    ps2Feed img k (0xE0 :: word) = ps2Feed img (enter k LISTEN_EXTENDED) word := by
  apply feed_silent img hmode
  rw [ps2Switch, if_pos (by decide)]

theorem feed_broken (hmode : modeOf k.listen = none) (word : List UInt8) :
    ps2Feed img k (0xF0 :: word) = ps2Feed img (enter k LISTEN_BROKEN) word := by
  apply feed_silent img hmode
  rw [ps2Switch, if_neg (by decide), if_pos (by decide)]

theorem feed_pause (hmode : modeOf k.listen = none) (word : List UInt8) :
    ps2Feed img k (0xE1 :: word) = ps2Feed img (enter k LISTEN_PAUSE) word := by
  apply feed_silent img hmode
  rw [ps2Switch, if_neg (by decide), if_neg (by decide), if_neg (by decide), if_neg (by decide),
    if_pos (by decide)]

theorem feed_prtscas (hlisten : k.listen = LISTEN_EXTENDED) (hidx : k.listenIdx = 1)
    (word : List UInt8) :
    ps2Feed img k (0x12 :: word) = ps2Feed img (enter k LISTEN_PRTSCAS) word := by
  have hmode : modeOf k.listen = none := by
    rw [hlisten]
    decide
  have hext : hasFlag k.listen LISTEN_EXTENDED := by
    rw [hlisten]
    decide
  apply feed_silent img hmode
  rw [ps2Switch, if_neg (by decide), if_neg (by decide), if_pos (by decide), if_pos ⟨hidx, hext⟩]

theorem feed_prtscdeas (hlisten : k.listen = LISTEN_EXTENDED ||| LISTEN_BROKEN)
    (hidx : k.listenIdx = 2) (word : List UInt8) :
    ps2Feed img k (0x7C :: word) = ps2Feed img (enter k LISTEN_PRTSCDEAS) word := by
  have hmode : modeOf k.listen = none := by
    rw [hlisten]
    decide
  have hboth : k.listen &&& (LISTEN_EXTENDED ||| LISTEN_BROKEN) =
      LISTEN_EXTENDED ||| LISTEN_BROKEN := by
    rw [hlisten]
    decide
  apply feed_silent img hmode
  rw [ps2Switch, if_neg (by decide), if_neg (by decide), if_neg (by decide), if_pos (by decide),
    if_pos ⟨hidx, hboth⟩]

theorem feed_standard_key (hlisten : k.listen = 0 ∨ k.listen = LISTEN_BROKEN)
    (c : StandardCode) :
    Idle (ps2Feed img k [c.val]).1 ∧ (ps2Feed img k [c.val]).2.map view =
      [(c.keycode, if hasFlag k.listen LISTEN_BROKEN then KS_RELEASED else KS_PRESSED)] := by
  have hmode : modeOf k.listen = none := by
    cases hlisten with
    | inl h => rw [h]; decide
    | inr h => rw [h]; decide
  have hext : hasFlag k.listen LISTEN_EXTENDED = false := by
    cases hlisten with
    | inl h => rw [h]; decide
    | inr h => rw [h]; decide
  rw [ps2Feed, feed_cons, interrupt_no_mode img hmode, switch_standard img hlisten c.plain,
    feed_nil, List.append_nil, ps2Key_view, hext, standard_keycode]
  exact ⟨ps2Key_idle img k c.val, rfl⟩

theorem feed_extended_key (hmode : modeOf k.listen = none)
    (hext : hasFlag k.listen LISTEN_EXTENDED) (c : ExtendedCode) :
    Idle (ps2Feed img k [c.val]).1 ∧ (ps2Feed img k [c.val]).2.map view =
      [(c.keycode, if hasFlag k.listen LISTEN_BROKEN then KS_RELEASED else KS_PRESSED)] := by
  rw [ps2Feed, feed_cons, interrupt_no_mode img hmode, switch_extended img c, feed_nil,
    List.append_nil, ps2Key_view, hext, extended_keycode]
  exact ⟨ps2Key_idle img k c.val, rfl⟩

/-- A sequence is decoded into its events and the keyboard is idle again. -/
theorem sequence_decoded (hidle : Idle k) (q : KeySequence) :
    Idle (ps2Feed img k q.bytes).1 ∧ (ps2Feed img k q.bytes).2.map view = q.events := by
  obtain ⟨hlisten, hidx⟩ := hidle
  have hmode : modeOf k.listen = none := by
    rw [hlisten]
    decide
  have hext : (enter k LISTEN_EXTENDED).listen = LISTEN_EXTENDED := by
    rw [enter_listen, hlisten]
    rfl
  have hextmode : modeOf (enter k LISTEN_EXTENDED).listen = none := by
    rw [hext]
    decide
  have hextidx : (enter k LISTEN_EXTENDED).listenIdx = 1 := by
    rw [enter_idx, hidx]
    rfl
  have hboth : (enter (enter k LISTEN_EXTENDED) LISTEN_BROKEN).listen =
      LISTEN_EXTENDED ||| LISTEN_BROKEN := by
    rw [enter_listen, hext]
  cases q with
  | make c =>
    have hkey := feed_standard_key img (.inl hlisten) c
    rw [hlisten] at hkey
    exact hkey
  | release c =>
    have hbroken : (enter k LISTEN_BROKEN).listen = LISTEN_BROKEN := by
      rw [enter_listen, hlisten]
      rfl
    have hkey := feed_standard_key img (.inr hbroken) c
    rw [hbroken] at hkey
    rw [KeySequence.bytes, PS2_BREAK_PREFIX, feed_broken img hmode]
    exact hkey
  | makeExtended c =>
    have hkey := feed_extended_key img hextmode (by rw [hext]; decide) c
    rw [hext] at hkey
    rw [KeySequence.bytes, PS2_XSCANCODE, feed_xscancode img hmode]
    exact hkey
  | releaseExtended c =>
    have hkey := feed_extended_key img (by rw [hboth]; decide) (by rw [hboth]; decide) c
    rw [hboth] at hkey
    rw [KeySequence.bytes, PS2_XSCANCODE, PS2_BREAK_PREFIX, feed_xscancode img hmode,
      feed_broken img hextmode]
    exact hkey
  | printScreenPress =>
    rw [KeySequence.bytes, PRINT_SCREEN_PRESS, feed_xscancode img hmode,
      feed_prtscas img hext hextidx]
    apply feed_mode (m := .prtscas)
    · rw [enter_listen, hext]
      decide
    · rw [enter_idx, hextidx]
      decide
    · rw [enter_idx, hextidx]
      decide
  | printScreenRelease =>
    have hbothidx : (enter (enter k LISTEN_EXTENDED) LISTEN_BROKEN).listenIdx = 2 := by
      rw [enter_idx, hextidx]
      rfl
    rw [KeySequence.bytes, PRINT_SCREEN_RELEASE, feed_xscancode img hmode,
      feed_broken img hextmode, feed_prtscdeas img hboth hbothidx]
    apply feed_mode (m := .prtscdeas)
    · rw [enter_listen, hboth]
      decide
    · rw [enter_idx, hbothidx]
      decide
    · rw [enter_idx, hbothidx]
      decide
  | pause =>
    rw [KeySequence.bytes, PAUSE_PRESSED, feed_pause img hmode]
    apply feed_mode (m := .pause)
    · rw [enter_listen, hlisten]
      decide
    · rw [enter_idx, hidx]
      decide
    · rw [enter_idx, hidx]
      decide

/-- Every list of complete sequences is decoded into exactly its events, in order. -/
theorem sequences_decoded (img : Image) (hidle : Idle k) (qs : List KeySequence) :
    (ps2Feed img k (qs.flatMap KeySequence.bytes)).2.map view = qs.flatMap KeySequence.events ∧
      (ps2Feed img k (qs.flatMap KeySequence.bytes)).1.listen = 0 ∧
      (ps2Feed img k (qs.flatMap KeySequence.bytes)).1.listenIdx = 0 := by
  have hcode : ∀ k, Idle k → ∀ q : KeySequence,
      Idle (feed (ps2KeyboardInterrupt img) k q.bytes).1 ∧
        (feed (ps2KeyboardInterrupt img) k q.bytes).2.map view = q.events :=
    fun _ h q => sequence_decoded img h q
  obtain ⟨⟨hlisten, hidx⟩, hview⟩ := feed_flatMap hcode hidle qs
  exact ⟨hview, hlisten, hidx⟩

/-- Print Screen between the press and the release of a key. -/
theorem sequences_decoded_print_screen :
    (ps2Feed ⟨0, fun _ => 0, fun _ => 0⟩ ⟨fun _ => KS_RELEASED, fun _ => KS_RELEASED, 0, 0⟩
      [0x1C, 0xE0, 0x12, 0xE0, 0x7C, 0xF0, 0x1C]).2.map view =
        [(KC_A, KS_PRESSED), (KC_PRINT_SCREEN, KS_PRESSED), (KC_A, KS_RELEASED)] := by
  have hidle : Idle ⟨fun _ => KS_RELEASED, fun _ => KS_RELEASED, 0, 0⟩ := ⟨rfl, rfl⟩
  exact (sequences_decoded ⟨0, fun _ => 0, fun _ => 0⟩ hidle
    [.make ⟨0x1C, by decide⟩, .printScreenPress, .release ⟨0x1C, by decide⟩]).1

end Ych.Devdriv
