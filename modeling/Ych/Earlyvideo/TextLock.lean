import Ych.Earlyvideo.FormatItems

/-! The lock of the text output: which texts, from which cursor, make a routine wait for the lock
that it holds itself. -/
namespace Ych.Dwtp
open Words CPU Krnlstring

def LockFree (s : DwtpSystem) : Prop := (s.cpu.dwState sg_DwtpSpinlock).testBit 0 = false

def LockHeld (s : DwtpSystem) : Prop := (s.cpu.dwState sg_DwtpSpinlock).testBit 0 = true

/-- The character fills the last line, so that the wrapping would scroll, or there is no cell to
divide by. -/
def Blocks (p : KrDisplaywideTextProtocolState) (c : CHAR) : Prop :=
  Shown p c ∧
    if c = ch '\n' then cellHeight p = 0
    else cellWidth p = 0 ∨ (FillsLine p ∧ (cellHeight p = 0 ∨ BehindLast p))

instance (p : KrDisplaywideTextProtocolState) (c : CHAR) : Decidable (Blocks p c) :=
  inferInstanceAs (Decidable (_ ∧ _))

def Unblocked : KrDisplaywideTextProtocolState → List CHAR → Prop
  | _, [] => True
  | p, c :: text => ¬Blocks p c ∧ Unblocked (cursorAfter p c) text

def Returns {α : Type} (system : α → DwtpSystem) (r : Except Stop α) : Prop :=
  ∃ a, r = .ok a ∧ LockFree (system a)

variable {s s' : DwtpSystem} {c : CHAR}

theorem acquireDwtp_free (h : LockFree s) :
    ∃ s', acquireDwtp s = .ok s' ∧ s'.protocol = s.protocol ∧ LockHeld s' := by
  have hfree : ¬(s.cpu.dwState sg_DwtpSpinlock).testBit 0 = true := by
    rw [h]
    exact Bool.false_ne_true
  rw [acquireDwtp, acquireOrWaitSpinlock, if_neg hfree]
  refine ⟨_, rfl, rfl, ?_⟩
  simp [LockHeld]

theorem acquireDwtp_held (h : LockHeld s) : acquireDwtp s = .error .spins := by
  have hset : (s.cpu.dwState sg_DwtpSpinlock).testBit 0 = true := h
  rw [acquireDwtp, acquireOrWaitSpinlock, if_pos hset]

theorem relinquishDwtp_free (s : DwtpSystem) : LockFree (relinquishDwtp s) := by
  simp [LockFree, relinquishDwtp, relinquishSpinlock]

theorem nextLine_held (h : LockHeld s) (hcell : cellHeight s.protocol ≠ 0) :
    (BehindLast s.protocol ∧ nextLine krdwtpScroll s = .error .spins) ∨
    (¬BehindLast s.protocol ∧ ∃ s', nextLine krdwtpScroll s = .ok s' ∧
      s'.protocol = breakLine s.protocol ∧ LockHeld s') := by
  rw [nextLine_eq _ s hcell, breakLine]
  by_cases hlast : BehindLast s.protocol
  · rw [if_pos hlast, krdwtpScroll]
    let x := s.setCursor 0 (wrap32 (s.protocol.cursorY + 1))
    have hspins : acquireDwtp x = .error .spins := acquireDwtp_held h
    exact Or.inl ⟨hlast, by rw [hspins]; rfl⟩
  · rw [if_neg hlast, if_neg hlast]
    exact Or.inr ⟨hlast, _, rfl, rfl, h⟩

theorem outCharacter_spec (h : LockHeld s) (c : CHAR) (foregroundColor backgroundColor : Nat) :
    (Blocks s.protocol c ∧ ∃ e, krdwtpOutColoredCharacter_NoSpin s c foregroundColor
      backgroundColor = .error e) ∨
    (¬Blocks s.protocol c ∧ ∃ s', krdwtpOutColoredCharacter_NoSpin s c foregroundColor
      backgroundColor = .ok s' ∧ s'.protocol = cursorAfter s.protocol c ∧ LockHeld s') := by
  rw [krdwtpOutColoredCharacter_NoSpin, cursorAfter, Blocks]
  by_cases hshown : Shown s.protocol c
  · rw [if_neg (not_not_intro hshown)]
    by_cases hnewline : c = ch '\n'
    · rw [outCharacterWith, if_neg (not_not_intro hshown), if_pos hnewline, if_pos hnewline,
        if_pos hnewline]
      by_cases hcell : cellHeight s.protocol = 0
      · exact Or.inl ⟨⟨hshown, hcell⟩, .divideError, if_pos hcell⟩
      · obtain ⟨s', hnext, hp, hcpu, _⟩ := nextLine_spec s hcell
        refine Or.inr ⟨fun hb => hcell hb.2, s', hnext, hp, ?_⟩
        rw [LockHeld, hcpu]
        exact h
    · obtain ⟨x, hp, hcpu, _, hout⟩ := outCharacterWith_drawn krdwtpScroll hshown hnewline
        foregroundColor backgroundColor
      have hheld : LockHeld x := by
        rw [LockHeld, hcpu]
        exact h
      rw [hout, if_neg hnewline, if_neg hnewline]
      by_cases hwidth : cellWidth s.protocol = 0
      · exact Or.inl ⟨⟨hshown, Or.inl hwidth⟩, .divideError, if_pos hwidth⟩
      rw [if_neg hwidth]
      by_cases hfills : FillsLine s.protocol
      · rw [if_pos hfills, if_pos hfills]
        have hheight : cellHeight x.protocol = cellHeight s.protocol := by rw [hp]; rfl
        have hbehind : BehindLast x.protocol ↔ BehindLast s.protocol := by rw [hp]; rfl
        by_cases hcell : cellHeight s.protocol = 0
        · exact Or.inl ⟨⟨hshown, Or.inr ⟨hfills, Or.inl hcell⟩⟩, .divideError,
            if_pos (hheight.trans hcell)⟩
        obtain ⟨hlast, hspins⟩ | ⟨hlast, s', hnext, hp', hheld'⟩ :=
          nextLine_held hheld (hheight.symm ▸ hcell)
        · exact Or.inl ⟨⟨hshown, Or.inr ⟨hfills, Or.inr (hbehind.mp hlast)⟩⟩, .spins, hspins⟩
        · refine Or.inr ⟨fun hb => ?_, s', hnext, hp'.trans (by rw [hp]; rfl), hheld'⟩
          exact hb.2.elim hwidth fun hb => hb.2.elim hcell fun hb => hlast (hbehind.mpr hb)
      · rw [if_neg hfills, if_neg hfills]
        refine Or.inr ⟨fun hb => ?_, x, rfl, hp, hheld⟩
        exact hb.2.elim hwidth fun hb => hfills hb.1
  · rw [outCharacterWith, if_pos hshown, if_pos hshown]
    exact Or.inr ⟨fun hb => hshown hb.1, s, rfl, rfl, h⟩

theorem outCharacters_spec (h : LockHeld s) (text : List CHAR)
    (foregroundColor backgroundColor : Nat) :
    (∃ s', text.foldlM (fun s c =>
      krdwtpOutColoredCharacter_NoSpin s c foregroundColor backgroundColor) s = .ok s') ↔
      Unblocked s.protocol text := by
  induction text generalizing s with
  | nil => exact ⟨fun _ => trivial, fun _ => ⟨s, rfl⟩⟩
  | cons c text ih =>
    rw [List.foldlM_cons, Unblocked]
    obtain ⟨hb, e, he⟩ | ⟨hb, s', hs', hp, hheld⟩ :=
      outCharacter_spec h c foregroundColor backgroundColor
    · rw [he]
      exact ⟨fun ⟨_, hok⟩ => (nomatch hok), fun hu => absurd hb hu.1⟩
    · rw [hs', ← hp]
      exact ⟨fun hok => ⟨hb, (ih hheld).mp hok⟩, fun hu => (ih hheld).mpr hu.2⟩

/-- What is run between acquiring and relinquishing decides whether the routine returns. -/
theorem returns_locked {α : Type} (system : α → DwtpSystem) (finish : α → α)
    (hfinish : ∀ a, LockFree (system (finish a))) (h : LockFree s)
    {body : DwtpSystem → Except Stop α} {p : Prop}
    (hbody : ∀ s', s'.protocol = s.protocol → LockHeld s' → ((∃ a, body s' = .ok a) ↔ p)) :
    Returns system (acquireDwtp s >>= fun s => body s >>= fun a => pure (finish a)) ↔ p := by
  obtain ⟨s', hacquire, hprotocol, hheld⟩ := acquireDwtp_free h
  rw [hacquire, ← hbody s' hprotocol hheld]
  change (∃ a, (body s' >>= fun a => pure (finish a)) = .ok a ∧ LockFree (system a)) ↔ _
  cases body s' with
  | error e =>
    exact ⟨fun ⟨_, hok, _⟩ => (nomatch hok), fun ⟨_, hok⟩ => (nomatch hok)⟩
  | ok a => exact ⟨fun _ => ⟨a, rfl⟩, fun _ => ⟨finish a, rfl, hfinish a⟩⟩

theorem exists_ok_bind {α β : Type} {r : Except Stop α} (g : α → β) :
    (∃ b, (r >>= fun a => pure (g a)) = .ok b) ↔ ∃ a, r = .ok a := by
  cases r with
  | error e =>
    exact ⟨fun ⟨_, hok⟩ => (nomatch hok), fun ⟨_, hok⟩ => (nomatch hok)⟩
  | ok a => exact ⟨fun _ => ⟨a, rfl⟩, fun _ => ⟨g a, rfl⟩⟩

def finishCall {α : Type} (r : α × DwtpSystem) : α × DwtpSystem := (r.1, relinquishDwtp r.2)

theorem outColoredCharacter_returns (h : LockFree s) (c : CHAR)
    (foregroundColor backgroundColor : Nat) :
    Returns id (krdwtpOutColoredCharacter s c foregroundColor backgroundColor) ↔
      Unblocked s.protocol [c] := by
  refine returns_locked id relinquishDwtp relinquishDwtp_free h fun s' hp hheld => ?_
  rw [← hp, ← outCharacters_spec hheld [c] foregroundColor backgroundColor]
  simp

theorem outColoredText_returns (h : LockFree s) (pText : CString)
    (foregroundColor backgroundColor : Nat) :
    Returns Prod.snd (krdwtpOutColoredText s pText foregroundColor backgroundColor) ↔
      Unblocked s.protocol pText.text := by
  refine returns_locked Prod.snd finishCall (fun r => relinquishDwtp_free r.2) h
    fun s' hp hheld => ?_
  rw [← hp, ← outCharacters_spec hheld pText.text foregroundColor backgroundColor,
    krdwtpOutColoredText_NoSpin, outText_eq]
  exact exists_ok_bind _

theorem outFormatText_returns (h : LockFree s) (pFmt : CString) (args : VaList) :
    Returns Prod.snd (krdwtpOutFormatTextVariadic s pFmt args) ↔
      Unblocked s.protocol (formattedText pFmt args).2 := by
  refine returns_locked Prod.snd finishCall (fun r => relinquishDwtp_free r.2) h
    fun s' hp hheld => ?_
  rw [← hp, ← outCharacters_spec hheld (formattedText pFmt args).2 KRDWTP_COLOR_WHITE
    KRDWTP_BACKGROUND, outFormat_eq]
  exact exists_ok_bind _

/-- With the lock free at the start, the three routines return with it released exactly if no
character they print blocks. -/
theorem textOutput_returns (h : LockFree s) :
    (∀ c foregroundColor backgroundColor,
      Returns id (krdwtpOutColoredCharacter s c foregroundColor backgroundColor) ↔
        Unblocked s.protocol [c]) ∧
    (∀ pText foregroundColor backgroundColor,
      Returns Prod.snd (krdwtpOutColoredText s pText foregroundColor backgroundColor) ↔
        Unblocked s.protocol pText.text) ∧
    ∀ pFmt args, Returns Prod.snd (krdwtpOutFormatTextVariadic s pFmt args) ↔
      Unblocked s.protocol (formattedText pFmt args).2 :=
  ⟨outColoredCharacter_returns h, outColoredText_returns h, outFormatText_returns h⟩

theorem fullScreen_free : LockFree fullScreen := freeProcessor_free sg_DwtpSpinlock

theorem textOutput_returns_fullScreen :
    (∀ c foregroundColor backgroundColor,
      Returns id (krdwtpOutColoredCharacter fullScreen c foregroundColor backgroundColor) ↔
        Unblocked fullScreen.protocol [c]) ∧
    (∀ pText foregroundColor backgroundColor,
      Returns Prod.snd (krdwtpOutColoredText fullScreen pText foregroundColor backgroundColor) ↔
        Unblocked fullScreen.protocol pText.text) ∧
    ∀ pFmt args, Returns Prod.snd (krdwtpOutFormatTextVariadic fullScreen pFmt args) ↔
      Unblocked fullScreen.protocol (formattedText pFmt args).2 :=
  textOutput_returns fullScreen_free

/-- The last character of the last line waits for the lock that it is printed under. -/
theorem last_character_spins :
    ¬ ∀ (s : DwtpSystem), LockFree s →
      (∀ c foregroundColor backgroundColor,
        Returns id (krdwtpOutColoredCharacter s c foregroundColor backgroundColor)) ∧
      (∀ pText foregroundColor backgroundColor,
        Returns Prod.snd (krdwtpOutColoredText s pText foregroundColor backgroundColor)) ∧
      ∀ pFmt args, Returns Prod.snd (krdwtpOutFormatTextVariadic s pFmt args) := by
  intro hall
  have hreturns := (hall fullScreen fullScreen_free).1 (ch 'a') 0 0
  have hblocks : Blocks fullScreen.protocol (ch 'a') := by decide
  exact ((outColoredCharacter_returns fullScreen_free (ch 'a') 0 0).mp hreturns).1 hblocks

end Ych.Dwtp
