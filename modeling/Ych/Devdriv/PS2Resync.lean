import Ych.Devdriv.PS2Keyboard

/-! Resynchronisation after noise: when a run of ordinary make codes brings the decoder back to
its idle state. -/
namespace Ych.Devdriv
open Words HumanInterface Transducers

variable {img : Image} {k : PS2Keyboard} {listen flag mask : Nat}

theorem hasFlag_or_other (h : flag &&& mask = 0) :
    hasFlag (listen ||| flag) mask = hasFlag listen mask := by
  rw [hasFlag, hasFlag, Nat.and_or_distrib_right, h, Nat.or_zero]

theorem hasFlag_or_self (h : flag &&& mask ≠ 0) : hasFlag (listen ||| flag) mask := by
  rw [hasFlag, Nat.and_or_distrib_right, bne_iff_ne]
  intro hzero
  exact h (Nat.or_eq_zero_iff.mp hzero).2

theorem modeOf_or (h : flag = LISTEN_EXTENDED ∨ flag = LISTEN_BROKEN) :
    modeOf (listen ||| flag) = modeOf listen := by
  cases h with
  | inl h =>
    rw [modeOf, h, hasFlag_or_other (by decide), hasFlag_or_other (by decide),
      hasFlag_or_other (by decide), modeOf]
  | inr h =>
    rw [modeOf, h, hasFlag_or_other (by decide), hasFlag_or_other (by decide),
      hasFlag_or_other (by decide), modeOf]

theorem modeOf_none (h : modeOf listen = none) : ¬ hasFlag listen LISTEN_PRTSCAS ∧
    ¬ hasFlag listen LISTEN_PRTSCDEAS ∧ ¬ hasFlag listen LISTEN_PAUSE := by
  simp only [modeOf] at h
  split_ifs at h with h₁ h₂ h₃
  exact ⟨h₁, h₂, h₃⟩

theorem modeOf_prtscas : modeOf (listen ||| LISTEN_PRTSCAS) = some .prtscas := by
  rw [modeOf, if_pos (hasFlag_or_self (by decide))]

theorem modeOf_prtscdeas (h : modeOf listen = none) :
    modeOf (listen ||| LISTEN_PRTSCDEAS) = some .prtscdeas := by
  have hprtscas := (modeOf_none h).1
  rw [modeOf, hasFlag_or_other (by decide), if_neg hprtscas,
    if_pos (hasFlag_or_self (by decide))]

theorem modeOf_pause (h : modeOf listen = none) :
    modeOf (listen ||| LISTEN_PAUSE) = some .pause := by
  obtain ⟨hprtscas, hprtscdeas, -⟩ := modeOf_none h
  rw [modeOf, hasFlag_or_other (by decide), if_neg hprtscas, hasFlag_or_other (by decide),
    if_neg hprtscdeas, if_pos (hasFlag_or_self (by decide))]

/-- Only the Pause mode can be entered at any position; the two others are entered in time. -/
structure InTime (k : PS2Keyboard) : Prop where
  idx : k.listenIdx < 2 ^ 32
  mode : ∀ m, modeOf k.listen = some m → m ≠ .pause → k.listenIdx ≤ m.last

theorem Idle.inTime (h : Idle k) : InTime k := by
  obtain ⟨hlisten, hidx⟩ := h
  refine ⟨by omega, fun m hm => ?_⟩
  rw [hlisten] at hm
  cases hm

theorem inTime_enter {mode : Nat}
    (hmode : ∀ m, modeOf (k.listen ||| mode) = some m → m ≠ .pause →
      k.listenIdx + 1 ≤ m.last) : InTime (enter k mode) := by
  refine ⟨wrap32_lt _, fun m hm hpause => ?_⟩
  have hnext := hmode m hm hpause
  have hle : wrap32 (k.listenIdx + 1) ≤ k.listenIdx + 1 := Nat.mod_le _ _
  exact hle.trans hnext

theorem switch_inTime (hmode : modeOf k.listen = none) (data : UInt8) :
    InTime (ps2Switch img k data).1 := by
  have hkey : InTime (ps2Key img k data).1 := (ps2Key_idle img k data).inTime
  rw [ps2Switch]
  split_ifs with hx hb has hidx hdeas hidx' hp
  · apply inTime_enter
    intro m hm
    rw [modeOf_or (.inl rfl), hmode] at hm
    cases hm
  · apply inTime_enter
    intro m hm
    rw [modeOf_or (.inr rfl), hmode] at hm
    cases hm
  · apply inTime_enter
    intro m hm _
    rw [modeOf_prtscas] at hm
    cases hm
    rw [hidx.1]
    decide
  · exact hkey
  · apply inTime_enter
    intro m hm _
    rw [modeOf_prtscdeas hmode] at hm
    cases hm
    rw [hidx'.1]
    decide
  · exact hkey
  · apply inTime_enter
    intro m hm hne
    rw [modeOf_pause hmode] at hm
    cases hm
    exact absurd rfl hne
  · exact hkey

theorem interrupt_inTime (k : PS2Keyboard) (data : UInt8) (h : InTime k) :
    InTime (ps2KeyboardInterrupt img k data).1 := by
  cases hmode : modeOf k.listen with
  | none =>
    rw [interrupt_no_mode img hmode]
    exact switch_inTime hmode data
  | some m =>
    by_cases hlast : k.listenIdx = m.last
    · exact (interrupt_last img hmode hlast data).1.inTime
    · rw [interrupt_before_last img hmode hlast]
      refine ⟨wrap32_lt _, fun m' hm' hne => ?_⟩
      have hm : some m = some m' := hmode.symm.trans hm'
      cases hm
      have hle := h.mode m hmode hne
      have hwrap : wrap32 (k.listenIdx + 1) ≤ k.listenIdx + 1 := Nat.mod_le _ _
      exact hwrap.trans (by omega)

def PausePassed (k : PS2Keyboard) : Prop := hasFlag k.listen LISTEN_PAUSE ∧ 7 < k.listenIdx

theorem PausePassed.mode (h : PausePassed k) (htime : InTime k) :
    modeOf k.listen = some .pause := by
  obtain ⟨hflag, hidx⟩ := h
  cases hmode : modeOf k.listen with
  | none => exact absurd hflag (modeOf_none hmode).2.2
  | some m =>
    cases m with
    | prtscas => exact absurd (htime.mode _ hmode (by decide)) (by simp only [Mode.last]; omega)
    | prtscdeas => exact absurd (htime.mode _ hmode (by decide)) (by simp only [Mode.last]; omega)
    | pause => rfl

theorem mode_pause_flag (h : modeOf listen = some .pause) : hasFlag listen LISTEN_PAUSE := by
  simp only [modeOf] at h
  split_ifs at h with h₁ h₂ h₃
  · cases h
  · cases h
  · exact h₃

/-- Past it, the mode stays for as long as the index has not come around. -/
theorem feed_pause_passed (hmode : modeOf k.listen = some .pause) (word : List UInt8)
    (hidx : ∀ j < word.length, (k.listenIdx + j) % 2 ^ 32 ≠ 7) (hlt : k.listenIdx < 2 ^ 32) :
    (ps2Feed img k word).1.listen = k.listen := by
  induction word generalizing k with
  | nil => rfl
  | cons data word ih =>
    have hfirst : k.listenIdx ≠ Mode.pause.last := by
      have hzero := hidx 0 (Nat.succ_pos _)
      rwa [Nat.add_zero, Nat.mod_eq_of_lt hlt] at hzero
    rw [ps2Feed, feed_cons, interrupt_before_last img hmode hfirst]
    refine ih (k := advance k) hmode ?_ (wrap32_lt _)
    intro j hj
    have hnext := hidx (j + 1) (Nat.succ_lt_succ hj)
    rwa [advance_idx, wrap32, Nat.mod_add_mod, Nat.add_assoc, Nat.add_comm 1 j]

/-- Passes through the idle state within eight ordinary make codes. -/
def Resyncs (img : Image) (k : PS2Keyboard) : Prop :=
  ∃ n, 1 ≤ n ∧ n ≤ 8 ∧ Idle (ps2Feed img k (List.replicate n PS2_SCANCODE_A)).1

theorem resyncs_outside_modes (hmode : modeOf k.listen = none) : Resyncs img k := by
  refine ⟨1, le_rfl, by decide, ?_⟩
  rw [List.replicate_one, ps2Feed, feed_cons, interrupt_no_mode img hmode, ps2Switch,
    if_neg (by decide), if_neg (by decide), if_neg (by decide), if_neg (by decide),
    if_neg (by decide)]
  exact ps2Key_idle img k _

theorem resyncs_in_time {m : Mode} (hmode : modeOf k.listen = some m)
    (hidx : k.listenIdx ≤ m.last) : Resyncs img k := by
  have hlast : m.last ≤ 7 := by cases m <;> decide
  refine ⟨m.last + 1 - k.listenIdx, by omega, by omega, ?_⟩
  refine (feed_mode img hmode ?_ hidx).1
  rw [List.length_replicate]
  omega

/-- From every state reached from idle by any bytes the decoder passes through the idle state
within eight ordinary make codes, except in the Pause mode past its last position. -/
theorem resyncs_iff (img : Image) (k : PS2Keyboard) (hidle : Idle k) (noise : List UInt8) :
    Resyncs img (ps2Feed img k noise).1 ↔ ¬ PausePassed (ps2Feed img k noise).1 := by
  have htime : InTime (ps2Feed img k noise).1 :=
    feed_invariant (fun s i h => interrupt_inTime s i h) hidle.inTime noise
  generalize (ps2Feed img k noise).1 = s at htime
  constructor
  · rintro ⟨n, -, hn, hlisten, -⟩ hpassed
    have hmode := hpassed.mode htime
    have hstays : (ps2Feed img s (List.replicate n PS2_SCANCODE_A)).1.listen = s.listen := by
      apply feed_pause_passed hmode _ _ htime.idx
      intro j hj
      rw [List.length_replicate] at hj
      have hidx := hpassed.2
      have hlt := htime.idx
      omega
    rw [hlisten] at hstays
    rw [← hstays] at hmode
    exact absurd hmode (by decide)
  · intro hpassed
    cases hmode : modeOf s.listen with
    | none => exact resyncs_outside_modes hmode
    | some m =>
      apply resyncs_in_time hmode
      by_cases hpause : m = .pause
      · cases hpause
        apply Nat.le_of_not_lt
        intro hidx
        exact hpassed ⟨mode_pause_flag hmode, hidx⟩
      · exact htime.mode m hmode hpause

def powerOn : PS2Keyboard := ⟨fun _ => KS_RELEASED, fun _ => KS_RELEASED, 0, 0⟩

def bareImage : Image := ⟨0, fun _ => 0, fun _ => 0⟩

/-- Noise that ends in the middle of Pause. -/
theorem resyncs_iff_pause : Resyncs bareImage (ps2Feed bareImage powerOn [0xE1, 0x1C, 0x1C]).1 := by
  have hinside : ¬ PausePassed (ps2Feed bareImage powerOn [0xE1, 0x1C, 0x1C]).1 :=
    fun h => absurd h.2 (by decide)
  exact (resyncs_iff bareImage powerOn ⟨rfl, rfl⟩ [0xE1, 0x1C, 0x1C]).mpr hinside

/-- Seven stray prefixes before 0xE1 leave the decoder in the Pause mode. -/
theorem resync_fails : ¬ ∀ (img : Image) (k : PS2Keyboard), Idle k → ∀ noise,
    Resyncs img (ps2Feed img k noise).1 := by
  intro h
  have hstuck : ∀ n < 9, (ps2Feed bareImage (ps2Feed bareImage powerOn
      [0xE0, 0xE0, 0xE0, 0xE0, 0xE0, 0xE0, 0xE0, 0xE1]).1
      (List.replicate n PS2_SCANCODE_A)).1.listen ≠ 0 := by
    decide +kernel
  obtain ⟨n, -, hle, hlisten, -⟩ := h bareImage powerOn ⟨rfl, rfl⟩
    [0xE0, 0xE0, 0xE0, 0xE0, 0xE0, 0xE0, 0xE0, 0xE1]
  exact hstuck n (Nat.lt_succ_of_le hle) hlisten

end Ych.Devdriv
