import Ych.Base.Transducers
import Ych.Base.Words
import Ych.Devdriv.PS2Scancodes
import Ych.HumanInterface.KeyboardHub

/-! The PS/2 keyboard interrupt: a decoder of scan code sequences whose mode and position are
kept between the bytes. -/
namespace Ych.Devdriv
open Words HumanInterface Transducers

def LISTEN_EXTENDED : Nat := 1 <<< 1
def LISTEN_BROKEN : Nat := 1 <<< 2
def LISTEN_PRTSCAS : Nat := 1 <<< 3
def LISTEN_PRTSCDEAS : Nat := 1 <<< 4
def LISTEN_PAUSE : Nat := 1 <<< 5

structure PS2Keyboard where
  standardKeyStates : UInt8 → Nat
  extendedKeyStates : UInt8 → Nat
  listen : Nat
  listenIdx : Nat

def ps2SampleKeymod (k : PS2Keyboard) : Nat :=
  let ctrl := if k.standardKeyStates PS2_SCANCODE_LCTRL = KS_PRESSED ∨
    k.extendedKeyStates PS2_XSCANCODE_RCTRL = KS_PRESSED then KM_CTRL else 0
  let alt := if k.standardKeyStates PS2_SCANCODE_LALT = KS_PRESSED ∨
    k.extendedKeyStates PS2_XSCANCODE_RALT = KS_PRESSED then KM_ALT else 0
  let shift := if k.standardKeyStates PS2_SCANCODE_LSHIFT = KS_PRESSED ∨
    k.standardKeyStates PS2_SCANCODE_RSHIFT = KS_PRESSED then KM_SHIFT else 0
  ctrl ||| alt ||| shift

def keyEvent (img : Image) (k : PS2Keyboard) (keycode oldState newState : Nat) :
    HiKeyboardEvent :=
  { source := img.ps2KeyboardDevice
    oldState := oldState
    newState := newState
    keycode := keycode
    keymod := ps2SampleKeymod k }

def advance (k : PS2Keyboard) : PS2Keyboard := { k with listenIdx := wrap32 (k.listenIdx + 1) }

def enter (k : PS2Keyboard) (mode : Nat) : PS2Keyboard :=
  advance { k with listen := k.listen ||| mode }

def toIdle (k : PS2Keyboard) : PS2Keyboard := { k with listen := 0, listenIdx := 0 }

def setPrintScreen (k : PS2Keyboard) (state : Nat) : PS2Keyboard :=
  { k with standardKeyStates := Function.update k.standardKeyStates 0xF7 state }

def ps2Key (img : Image) (k : PS2Keyboard) (data : UInt8) :
    PS2Keyboard × List HiKeyboardEvent :=
  let ksOld := if hasFlag k.listen LISTEN_BROKEN then KS_PRESSED else KS_RELEASED
  let ksNew := if hasFlag k.listen LISTEN_BROKEN then KS_RELEASED else KS_PRESSED
  let k₁ := if hasFlag k.listen LISTEN_EXTENDED then
      { k with extendedKeyStates := Function.update k.extendedKeyStates data ksNew }
    else { k with standardKeyStates := Function.update k.standardKeyStates data ksNew }
  let keycode := ps2ScancodeToKeycode img (hasFlag k.listen LISTEN_EXTENDED) data
  (toIdle k₁, [keyEvent img k₁ keycode ksOld ksNew])

def ps2Switch (img : Image) (k : PS2Keyboard) (data : UInt8) :
    PS2Keyboard × List HiKeyboardEvent :=
  if data = PS2_XSCANCODE then (enter k LISTEN_EXTENDED, [])
  else if data = PS2_BREAK_PREFIX then (enter k LISTEN_BROKEN, [])
  else if data = 0x12 then
    if k.listenIdx = 1 ∧ hasFlag k.listen LISTEN_EXTENDED then (enter k LISTEN_PRTSCAS, [])
    else ps2Key img k data
  else if data = 0x7C then
    if k.listenIdx = 2 ∧ k.listen &&& (LISTEN_EXTENDED ||| LISTEN_BROKEN) =
        LISTEN_EXTENDED ||| LISTEN_BROKEN then (enter k LISTEN_PRTSCDEAS, [])
    else ps2Key img k data
  else if data = 0xE1 then (enter k LISTEN_PAUSE, [])
  else ps2Key img k data

/-- The next state and the events pushed, in order. -/
def ps2KeyboardInterrupt (img : Image) (k : PS2Keyboard) (data : UInt8) :
    PS2Keyboard × List HiKeyboardEvent :=
  if hasFlag k.listen LISTEN_PRTSCAS then
    if k.listenIdx = 3 then
      (toIdle (setPrintScreen k KS_PRESSED),
        [keyEvent img k KC_PRINT_SCREEN KS_RELEASED KS_PRESSED])
    else (advance k, [])
  else if hasFlag k.listen LISTEN_PRTSCDEAS then
    if k.listenIdx = 5 then
      (toIdle (setPrintScreen k KS_RELEASED),
        [keyEvent img k KC_PRINT_SCREEN KS_PRESSED KS_RELEASED])
    else (advance k, [])
  else if hasFlag k.listen LISTEN_PAUSE then
    if k.listenIdx = 7 then
      (toIdle k, [keyEvent img k KC_PAUSE KS_RELEASED KS_PRESSED,
        keyEvent img k KC_PAUSE KS_PRESSED KS_RELEASED])
    else (advance k, [])
  else ps2Switch img k data

def ps2Feed (img : Image) (k : PS2Keyboard) (bytes : List UInt8) :
    PS2Keyboard × List HiKeyboardEvent := feed (ps2KeyboardInterrupt img) k bytes

def Idle (k : PS2Keyboard) : Prop := k.listen = 0 ∧ k.listenIdx = 0

variable (img : Image) {k : PS2Keyboard}

theorem idle_toIdle (k : PS2Keyboard) : Idle (toIdle k) := ⟨rfl, rfl⟩

@[simp] theorem advance_idx (k : PS2Keyboard) :
    (advance k).listenIdx = wrap32 (k.listenIdx + 1) := rfl

@[simp] theorem enter_listen (k : PS2Keyboard) (mode : Nat) :
    (enter k mode).listen = k.listen ||| mode := rfl

@[simp] theorem enter_idx (k : PS2Keyboard) (mode : Nat) :
    (enter k mode).listenIdx = wrap32 (k.listenIdx + 1) := rfl

theorem ps2Key_idle (k : PS2Keyboard) (data : UInt8) : Idle (ps2Key img k data).1 :=
  idle_toIdle _

/-- A multi-byte mode: it ignores the bytes and leaves at one position. -/
inductive Mode where
  | prtscas
  | prtscdeas
  | pause
  deriving DecidableEq

namespace Mode

def last : Mode → Nat
  | prtscas => 3
  | prtscdeas => 5
  | pause => 7

def events : Mode → List (Nat × Nat)
  | prtscas => [(KC_PRINT_SCREEN, KS_PRESSED)]
  | prtscdeas => [(KC_PRINT_SCREEN, KS_RELEASED)]
  | pause => [(KC_PAUSE, KS_PRESSED), (KC_PAUSE, KS_RELEASED)]

end Mode

/-- The mode in the order the interrupt tests the flags. -/
def modeOf (listen : Nat) : Option Mode :=
  if hasFlag listen LISTEN_PRTSCAS then some .prtscas
  else if hasFlag listen LISTEN_PRTSCDEAS then some .prtscdeas
  else if hasFlag listen LISTEN_PAUSE then some .pause
  else none

def view (e : HiKeyboardEvent) : Nat × Nat := (e.keycode, e.newState)

theorem interrupt_no_mode (hmode : modeOf k.listen = none) (data : UInt8) :
    ps2KeyboardInterrupt img k data = ps2Switch img k data := by
  simp only [modeOf] at hmode
  split_ifs at hmode with h₁ h₂ h₃
  rw [ps2KeyboardInterrupt, if_neg h₁, if_neg h₂, if_neg h₃]

theorem interrupt_before_last {m : Mode} (hmode : modeOf k.listen = some m)
    (hidx : k.listenIdx ≠ m.last) (data : UInt8) :
    ps2KeyboardInterrupt img k data = (advance k, []) := by
  simp only [modeOf] at hmode
  split_ifs at hmode with h₁ h₂ h₃ <;> cases hmode
  · rw [ps2KeyboardInterrupt, if_pos h₁]
    exact if_neg hidx
  · rw [ps2KeyboardInterrupt, if_neg h₁, if_pos h₂]
    exact if_neg hidx
  · rw [ps2KeyboardInterrupt, if_neg h₁, if_neg h₂, if_pos h₃]
    exact if_neg hidx

theorem interrupt_last {m : Mode} (hmode : modeOf k.listen = some m)
    (hidx : k.listenIdx = m.last) (data : UInt8) :
    Idle (ps2KeyboardInterrupt img k data).1 ∧
      (ps2KeyboardInterrupt img k data).2.map view = m.events := by
  simp only [modeOf] at hmode
  split_ifs at hmode with h₁ h₂ h₃ <;> cases hmode
  · rw [ps2KeyboardInterrupt, if_pos h₁, if_pos (show k.listenIdx = 3 from hidx)]
    exact ⟨idle_toIdle _, rfl⟩
  · rw [ps2KeyboardInterrupt, if_neg h₁, if_pos h₂, if_pos (show k.listenIdx = 5 from hidx)]
    exact ⟨idle_toIdle _, rfl⟩
  · rw [ps2KeyboardInterrupt, if_neg h₁, if_neg h₂, if_pos h₃,
      if_pos (show k.listenIdx = 7 from hidx)]
    exact ⟨idle_toIdle _, rfl⟩

/-- A mode entered in time runs to its last position whatever the bytes are. -/
theorem feed_mode {m : Mode} {word : List UInt8} (hmode : modeOf k.listen = some m)
    (hlen : k.listenIdx + word.length = m.last + 1) (hidx : k.listenIdx ≤ m.last) :
    Idle (ps2Feed img k word).1 ∧ (ps2Feed img k word).2.map view = m.events := by
  induction word generalizing k with
  | nil =>
    rw [List.length_nil] at hlen
    omega
  | cons data word ih =>
    rw [List.length_cons] at hlen
    rw [ps2Feed, feed_cons]
    by_cases hlast : k.listenIdx = m.last
    · have hnil : word = [] := List.length_eq_zero_iff.mp (by omega)
      obtain ⟨hidle, hview⟩ := interrupt_last img hmode hlast data
      rw [hnil, feed_nil, List.append_nil]
      exact ⟨hidle, hview⟩
    · have hbound : m.last ≤ 7 := by cases m <;> decide
      have hnext : (advance k).listenIdx = k.listenIdx + 1 := wrap32_of_lt (by omega)
      have hlen' : (advance k).listenIdx + word.length = m.last + 1 := by omega
      have hidx' : (advance k).listenIdx ≤ m.last := by omega
      rw [interrupt_before_last img hmode hlast, List.nil_append]
      exact ih hmode hlen' hidx'

end Ych.Devdriv
