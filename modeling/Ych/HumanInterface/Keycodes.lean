/-! Key codes, key states and key modifiers. -/
namespace Ych.HumanInterface

def KM_CTRL : Nat := 1
def KM_ALT : Nat := 2
def KM_SHIFT : Nat := 4

def KS_RELEASED : Nat := 0
def KS_PRESSED : Nat := 1

def KC_INVALID : Nat := 0x00

def KC_BACKSPACE : Nat := 0x08
def KC_TAB : Nat := 0x09
def KC_ENTER : Nat := 0x0A
def KC_CAPS_LOCK : Nat := 0x14
def KC_ESCAPE : Nat := 0x1B
def KC_SPACE : Nat := 0x20
def KC_APOSTROPHE : Nat := 0x27
def KC_COMMA : Nat := 0x2C
def KC_MINUS : Nat := 0x2D
def KC_PERIOD : Nat := 0x2E
def KC_SLASH : Nat := 0x2F

def KC_0 : Nat := 0x30
def KC_1 : Nat := 0x31
def KC_2 : Nat := 0x32
def KC_3 : Nat := 0x33
def KC_4 : Nat := 0x34
def KC_5 : Nat := 0x35
def KC_6 : Nat := 0x36
def KC_7 : Nat := 0x37
def KC_8 : Nat := 0x38
def KC_9 : Nat := 0x39
def KC_SEMICOLON : Nat := 0x3B
def KC_EQUAL : Nat := 0x3D

def KC_A : Nat := 0x41
def KC_B : Nat := 0x42
def KC_C : Nat := 0x43
def KC_D : Nat := 0x44
def KC_E : Nat := 0x45
def KC_F : Nat := 0x46
def KC_G : Nat := 0x47
def KC_H : Nat := 0x48
def KC_I : Nat := 0x49
def KC_J : Nat := 0x4A
def KC_K : Nat := 0x4B
def KC_L : Nat := 0x4C
def KC_M : Nat := 0x4D
def KC_N : Nat := 0x4E
def KC_O : Nat := 0x4F
def KC_P : Nat := 0x50
def KC_Q : Nat := 0x51
def KC_R : Nat := 0x52
def KC_S : Nat := 0x53
def KC_T : Nat := 0x54
def KC_U : Nat := 0x55
def KC_V : Nat := 0x56
def KC_W : Nat := 0x57
def KC_X : Nat := 0x58
def KC_Y : Nat := 0x59
def KC_Z : Nat := 0x5A

def KC_LBRACKET : Nat := 0x5B
def KC_BACKSLASH : Nat := 0x5C
def KC_RBRACKET : Nat := 0x5D

def KC_BACKTICK : Nat := 0x60

def KC_KP_0 : Nat := 0x70
def KC_KP_1 : Nat := 0x71
def KC_KP_2 : Nat := 0x72
def KC_KP_3 : Nat := 0x73
def KC_KP_4 : Nat := 0x74
def KC_KP_5 : Nat := 0x75
def KC_KP_6 : Nat := 0x76
def KC_KP_7 : Nat := 0x77
def KC_KP_8 : Nat := 0x78
def KC_KP_9 : Nat := 0x79
def KC_KP_ENTER : Nat := 0x7A
def KC_KP_ASTERISK : Nat := 0x7B
def KC_KP_PLUS : Nat := 0x7C
def KC_KP_MINUS : Nat := 0x7D
def KC_KP_PERIOD : Nat := 0x7E
def KC_KP_SLASH : Nat := 0x7F

def KC_LSHIFT : Nat := 0x80
def KC_RSHIFT : Nat := 0x81
def KC_LCTRL : Nat := 0x82
def KC_RCTRL : Nat := 0x83
def KC_LALT : Nat := 0x84
def KC_RALT : Nat := 0x85
def KC_LSUPER : Nat := 0x86
def KC_RSUPER : Nat := 0x87
def KC_APPS : Nat := 0x88

def KC_NUM_LOCK : Nat := 0x90
def KC_SCROLL_LOCK : Nat := 0x91
def KC_HOME : Nat := 0x93
def KC_END : Nat := 0x94
def KC_PRINT_SCREEN : Nat := 0x95
def KC_PAUSE : Nat := 0x96
def KC_INSERT : Nat := 0x97
def KC_PAGE_UP : Nat := 0x98
def KC_PAGE_DOWN : Nat := 0x99
def KC_DELETE : Nat := 0x9A

def KC_LARROW : Nat := 0xA1
def KC_RARROW : Nat := 0xA2
def KC_UARROW : Nat := 0xA4
def KC_DARROW : Nat := 0xA8

def KC_VOLMUTE : Nat := 0xB0
def KC_VOLDOWN : Nat := 0xB1
def KC_VOLUP : Nat := 0xB2

def KC_F1 : Nat := 0xF1
def KC_F2 : Nat := 0xF2
def KC_F3 : Nat := 0xF3
def KC_F4 : Nat := 0xF4
def KC_F5 : Nat := 0xF5
def KC_F6 : Nat := 0xF6
def KC_F7 : Nat := 0xF7
def KC_F8 : Nat := 0xF8
def KC_F9 : Nat := 0xF9
def KC_F10 : Nat := 0xFA
def KC_F11 : Nat := 0xFB
def KC_F12 : Nat := 0xFC

end Ych.HumanInterface
