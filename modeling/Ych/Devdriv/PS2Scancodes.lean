import Mathlib.Data.List.GetD
import Ych.HumanInterface.Keycodes

/-! Scan code set 2 of the PS/2 keyboard and its tables of key codes. -/
namespace Ych.Devdriv
open HumanInterface

def PS2_XSCANCODE : UInt8 := 0xE0
def PS2_BREAK_PREFIX : UInt8 := 0xF0
def PS2_SCANCODE_LALT : UInt8 := 0x11
def PS2_SCANCODE_LSHIFT : UInt8 := 0x12
def PS2_SCANCODE_LCTRL : UInt8 := 0x14
def PS2_SCANCODE_A : UInt8 := 0x1C
def PS2_SCANCODE_RSHIFT : UInt8 := 0x59
def PS2_XSCANCODE_RALT : UInt8 := 0x11
def PS2_XSCANCODE_RCTRL : UInt8 := 0x14

def PRINT_SCREEN_PRESS : List UInt8 := [0xE0, 0x12, 0xE0, 0x7C]
def PRINT_SCREEN_RELEASE : List UInt8 := [0xE0, 0xF0, 0x7C, 0xE0, 0xF0, 0x12]
def PAUSE_PRESSED : List UInt8 := [0xE1, 0x14, 0x77, 0xE1, 0xF0, 0x14, 0xF0, 0x77]

/-- Eight codes a line, from 0x00 to 0x83. -/
def StandardScancodeToKeycodeMap : List Nat :=
  [KC_INVALID, KC_F9, KC_INVALID, KC_F5, KC_F3, KC_F1, KC_F2, KC_F12,
   KC_INVALID, KC_F10, KC_F8, KC_F6, KC_F4, KC_TAB, KC_BACKTICK, KC_INVALID,
   KC_INVALID, KC_LALT, KC_LSHIFT, KC_INVALID, KC_LCTRL, KC_Q, KC_1, KC_INVALID,
   KC_INVALID, KC_INVALID, KC_Z, KC_S, KC_A, KC_W, KC_2, KC_INVALID,
   KC_INVALID, KC_C, KC_X, KC_D, KC_E, KC_4, KC_3, KC_INVALID,
   KC_INVALID, KC_SPACE, KC_V, KC_F, KC_T, KC_R, KC_5, KC_INVALID,
   KC_INVALID, KC_N, KC_B, KC_H, KC_G, KC_Y, KC_6, KC_INVALID,
   KC_INVALID, KC_INVALID, KC_M, KC_J, KC_U, KC_7, KC_8, KC_INVALID,
   KC_INVALID, KC_COMMA, KC_K, KC_I, KC_O, KC_0, KC_9, KC_INVALID,
   KC_INVALID, KC_PERIOD, KC_SLASH, KC_L, KC_SEMICOLON, KC_P, KC_MINUS, KC_INVALID,
   KC_INVALID, KC_INVALID, KC_APOSTROPHE, KC_INVALID, KC_LBRACKET, KC_EQUAL, KC_INVALID, KC_INVALID,
   KC_CAPS_LOCK, KC_RSHIFT, KC_ENTER, KC_RBRACKET, KC_INVALID, KC_BACKSLASH, KC_INVALID, KC_INVALID,
   KC_INVALID, KC_INVALID, KC_INVALID, KC_INVALID, KC_INVALID, KC_INVALID, KC_BACKSPACE, KC_INVALID,
   KC_INVALID, KC_KP_1, KC_INVALID, KC_KP_4, KC_KP_7, KC_INVALID, KC_INVALID, KC_INVALID,
   KC_KP_0, KC_KP_PERIOD, KC_KP_2, KC_KP_5, KC_KP_6, KC_KP_8, KC_ESCAPE, KC_NUM_LOCK,
   KC_F11, KC_KP_PLUS, KC_KP_3, KC_KP_MINUS, KC_KP_ASTERISK, KC_KP_9, KC_SCROLL_LOCK, KC_INVALID,
   KC_INVALID, KC_INVALID, KC_INVALID, KC_F7]

def ExtendedScancodeToKeycodeMap : List Nat :=
  [KC_INVALID, KC_INVALID, KC_INVALID, KC_INVALID, KC_INVALID, KC_INVALID, KC_INVALID, KC_INVALID,
   KC_INVALID, KC_INVALID, KC_INVALID, KC_INVALID, KC_INVALID, KC_INVALID, KC_INVALID, KC_INVALID,
   KC_INVALID, KC_RALT, KC_INVALID, KC_INVALID, KC_RCTRL, KC_INVALID, KC_INVALID, KC_INVALID,
   KC_INVALID, KC_INVALID, KC_INVALID, KC_INVALID, KC_INVALID, KC_INVALID, KC_INVALID, KC_LSUPER,
   KC_INVALID, KC_VOLDOWN, KC_INVALID, KC_VOLMUTE, KC_INVALID, KC_INVALID, KC_INVALID, KC_RSUPER,
   KC_INVALID, KC_INVALID, KC_INVALID, KC_INVALID, KC_INVALID, KC_INVALID, KC_INVALID, KC_APPS,
   KC_INVALID, KC_INVALID, KC_VOLUP, KC_INVALID, KC_INVALID, KC_INVALID, KC_INVALID, KC_INVALID,
   KC_INVALID, KC_INVALID, KC_INVALID, KC_INVALID, KC_INVALID, KC_INVALID, KC_INVALID, KC_INVALID,
   KC_INVALID, KC_INVALID, KC_INVALID, KC_INVALID, KC_INVALID, KC_INVALID, KC_INVALID, KC_INVALID,
   KC_INVALID, KC_INVALID, KC_KP_SLASH, KC_INVALID, KC_INVALID, KC_INVALID, KC_INVALID, KC_INVALID,
   KC_INVALID, KC_INVALID, KC_INVALID, KC_INVALID, KC_INVALID, KC_INVALID, KC_INVALID, KC_INVALID,
   KC_INVALID, KC_INVALID, KC_KP_ENTER, KC_INVALID, KC_INVALID, KC_INVALID, KC_INVALID, KC_INVALID,
   KC_INVALID, KC_INVALID, KC_INVALID, KC_INVALID, KC_INVALID, KC_INVALID, KC_INVALID, KC_INVALID,
   KC_INVALID, KC_END, KC_INVALID, KC_LARROW, KC_HOME, KC_INVALID, KC_INVALID, KC_INVALID,
   KC_INSERT, KC_DELETE, KC_DARROW, KC_INVALID, KC_RARROW, KC_UARROW, KC_INVALID, KC_INVALID,
   KC_INVALID, KC_INVALID, KC_PAGE_DOWN, KC_INVALID, KC_INVALID, KC_PAGE_UP]

/-- The linked image: the address of the device node and the words behind the two tables. -/
structure Image where
  ps2KeyboardDevice : Nat
  behindStandard : Nat → Nat
  behindExtended : Nat → Nat

/-- The bound is the size of the table in bytes, so that every scan code passes it and a code
above the last entry reads a word behind the table. -/
def lookupKeycode (map : List Nat) (behind : Nat → Nat) (scancode : UInt8) : Nat :=
  if scancode.toNat > 4 * map.length then KC_INVALID
  else map.getD scancode.toNat (behind scancode.toNat)

def ps2ScancodeToKeycode (img : Image) (bExtend : Bool) (scancode : UInt8) : Nat :=
  if bExtend then lookupKeycode ExtendedScancodeToKeycodeMap img.behindExtended scancode
  else lookupKeycode StandardScancodeToKeycodeMap img.behindStandard scancode

def Present (map : List Nat) (scancode : UInt8) : Prop :=
  map.getD scancode.toNat KC_INVALID ≠ KC_INVALID

instance (map : List Nat) (scancode : UInt8) : Decidable (Present map scancode) :=
  inferInstanceAs (Decidable (_ ≠ _))

theorem standard_length : StandardScancodeToKeycodeMap.length = 132 := by
  decide +kernel

theorem extended_length : ExtendedScancodeToKeycodeMap.length = 126 := by
  decide +kernel

variable {map : List Nat} {scancode : UInt8}

theorem Present.lt_length (h : Present map scancode) : scancode.toNat < map.length := by
  apply Nat.lt_of_not_le
  intro hge
  exact h (List.getD_eq_default _ _ hge)

theorem Present.lookup (h : Present map scancode) (behind : Nat → Nat) :
    lookupKeycode map behind scancode = map.getD scancode.toNat KC_INVALID := by
  have hlt := h.lt_length
  rw [lookupKeycode, if_neg (by omega), List.getD_eq_getElem _ _ hlt,
    List.getD_eq_getElem _ _ hlt]

end Ych.Devdriv
