import Ych.Devdriv.PS2Keyboard

/-! The scan codes that a byte stream completes, and what the handler makes of them in its tables
of key states and of key codes. -/
namespace Ych.Devdriv
open Words HumanInterface Transducers

structure Key where
  extended : Bool
  scancode : UInt8
  deriving DecidableEq

inductive Report where
  | scan (key : Key) (pressed : Bool)
  | printScreen (pressed : Bool)
  deriving DecidableEq

def Report.about : Report → Key
  | .scan key _ => key
  | .printScreen _ => ⟨false, 0xF7⟩

def Report.pressed : Report → Bool
  | .scan _ pressed => pressed
  | .printScreen pressed => pressed

def keyState (pressed : Bool) : Nat := if pressed then KS_PRESSED else KS_RELEASED

/-- The byte is a prefix or enters a mode. -/
def ReadsOn (k : PS2Keyboard) (data : UInt8) : Prop :=
  data = PS2_XSCANCODE ∨ data = PS2_BREAK_PREFIX ∨ data = 0xE1 ∨
    data = 0x12 ∧ k.listenIdx = 1 ∧ hasFlag k.listen LISTEN_EXTENDED ∨
    data = 0x7C ∧ k.listenIdx = 2 ∧ k.listen &&& (LISTEN_EXTENDED ||| LISTEN_BROKEN) =
      LISTEN_EXTENDED ||| LISTEN_BROKEN

instance (k : PS2Keyboard) (data : UInt8) : Decidable (ReadsOn k data) :=
  inferInstanceAs (Decidable (_ ∨ _))

def listenKey (k : PS2Keyboard) (data : UInt8) : Key := ⟨hasFlag k.listen LISTEN_EXTENDED, data⟩

def report (k : PS2Keyboard) (data : UInt8) : Option Report :=
  match modeOf k.listen with
  | some .prtscas => if k.listenIdx = 3 then some (.printScreen true) else none
  | some .prtscdeas => if k.listenIdx = 5 then some (.printScreen false) else none
  | some .pause => none
  | none =>
    if ReadsOn k data then none
    else some (.scan (listenKey k data) (!hasFlag k.listen LISTEN_BROKEN))

def reportStep (img : Image) (k : PS2Keyboard) (data : UInt8) : PS2Keyboard × List Report :=
  ((ps2KeyboardInterrupt img k data).1, (report k data).toList)

def bootKeyboard : PS2Keyboard := ⟨fun _ => 0, fun _ => 0, 0, 0⟩

def afterBytes (img : Image) (bytes : List UInt8) : PS2Keyboard :=
  (ps2Feed img bootKeyboard bytes).1

def reports (img : Image) (bytes : List UInt8) : List Report :=
  (feed (reportStep img) bootKeyboard bytes).2

def recorded (k : PS2Keyboard) (key : Key) : Nat :=
  if key.extended then k.extendedKeyStates key.scancode else k.standardKeyStates key.scancode

def lastPressed (log : List Report) (key : Key) : Bool :=
  ((log.filter fun r => r.about = key).getLast?.map Report.pressed).getD false

/-- The events of the byte as scan code of a key carry what the tables had and have for it. -/
def TrueEvents (img : Image) (k : PS2Keyboard) (data : UInt8) : Prop :=
  modeOf k.listen = none → ∀ e ∈ (ps2KeyboardInterrupt img k data).2,
    e.oldState = recorded k (listenKey k data) ∧
      e.newState = recorded (ps2KeyboardInterrupt img k data).1 (listenKey k data)

def EventStatesTrue (img : Image) (bytes : List UInt8) : Prop :=
  Along (fun done data => TrueEvents img (afterBytes img done) data) bytes

def Alternates (log : List Report) : Prop :=
  Along (fun done r => ∀ key pressed, r = .scan key pressed → pressed ≠ lastPressed done key) log

def lookupIndex (map : List Nat) (scancode : UInt8) : Option Nat :=
  if scancode.toNat > 4 * map.length then none else some scancode.toNat

def keycodeMap (bExtend : Bool) : List Nat :=
  if bExtend then ExtendedScancodeToKeycodeMap else StandardScancodeToKeycodeMap

/-- The entries that the handler reads for a byte: the table and the index. -/
def keycodeReads (k : PS2Keyboard) (data : UInt8) : List (Bool × Nat) :=
  if modeOf k.listen = none ∧ ¬ReadsOn k data then
    (lookupIndex (keycodeMap (listenKey k data).extended) data).toList.map
      fun i => ((listenKey k data).extended, i)
  else []

/-- The entries read are there, and a scan code without an entry is an invalid key. -/
def TablesKept (img : Image) (k : PS2Keyboard) (data : UInt8) : Prop :=
  (∀ r ∈ keycodeReads k data, r.2 < (keycodeMap r.1).length) ∧
    (modeOf k.listen = none → (keycodeMap (listenKey k data).extended).length ≤ data.toNat →
      ∀ e ∈ (ps2KeyboardInterrupt img k data).2, e.keycode = KC_INVALID)

def TableReadsKept (img : Image) (bytes : List UInt8) : Prop :=
  Along (fun done data => TablesKept img (afterBytes img done) data) bytes

def Listed (key : Key) : Prop := key.scancode.toNat < (keycodeMap key.extended).length

variable {img : Image} {k : PS2Keyboard} {data : UInt8} {log : List Report}

theorem lookupKeycode_index (map : List Nat) (behind : Nat → Nat) (scancode : UInt8) :
    lookupKeycode map behind scancode =
      ((lookupIndex map scancode).map fun i => map.getD i (behind i)).getD KC_INVALID := by
  rw [lookupKeycode, lookupIndex]
  split
  · rfl
  · rfl

theorem keyState_inj {a b : Bool} : keyState a = keyState b ↔ a = b := by
  cases a <;> cases b <;> decide

theorem switch_readsOn (img : Image) (h : ReadsOn k data) :
    ∃ mode, ps2Switch img k data = (enter k mode, []) := by
  unfold ps2Switch
  obtain rfl | rfl | rfl | ⟨rfl, hidx⟩ | ⟨rfl, hidx⟩ := h
  · exact ⟨_, rfl⟩
  · exact ⟨_, rfl⟩
  · exact ⟨_, rfl⟩
  · rw [if_neg (by decide), if_neg (by decide), if_pos rfl, if_pos hidx]
    exact ⟨_, rfl⟩
  · rw [if_neg (by decide), if_neg (by decide), if_neg (by decide), if_pos rfl, if_pos hidx]
    exact ⟨_, rfl⟩

theorem switch_key (h : ¬ReadsOn k data) : ps2Switch img k data = ps2Key img k data := by
  simp only [ReadsOn, not_or, not_and] at h
  obtain ⟨hx, hb, hp, hshift, hdeas⟩ := h
  rw [ps2Switch, if_neg hx, if_neg hb]
  split_ifs with h₁ h₂ h₃ h₄
  · exact absurd h₂.2 (hshift h₁ h₂.1)
  · rfl
  · exact absurd h₄.2 (hdeas h₃ h₄.1)
  · rfl
  · rfl

theorem recorded_toIdle : recorded (toIdle k) = recorded k := rfl

theorem recorded_standard (code : UInt8) (state : Nat) :
    recorded { k with standardKeyStates := Function.update k.standardKeyStates code state } =
      Function.update (recorded k) ⟨false, code⟩ state := by
  funext key
  obtain ⟨extended, scancode⟩ := key
  cases extended
  · by_cases hcode : scancode = code
    · rw [hcode, Function.update_self]
      exact Function.update_self code state k.standardKeyStates
    · rw [Function.update_of_ne (by simpa using hcode)]
      exact Function.update_of_ne hcode state k.standardKeyStates
  · rw [Function.update_of_ne (by simp)]
    rfl

theorem recorded_extended (code : UInt8) (state : Nat) :
    recorded { k with extendedKeyStates := Function.update k.extendedKeyStates code state } =
      Function.update (recorded k) ⟨true, code⟩ state := by
  funext key
  obtain ⟨extended, scancode⟩ := key
  cases extended
  · rw [Function.update_of_ne (by simp)]
    rfl
  · by_cases hcode : scancode = code
    · rw [hcode, Function.update_self]
      exact Function.update_self code state k.extendedKeyStates
    · rw [Function.update_of_ne (by simpa using hcode)]
      exact Function.update_of_ne hcode state k.extendedKeyStates

theorem recorded_key (img : Image) (k : PS2Keyboard) (data : UInt8) :
    recorded (ps2Key img k data).1 = Function.update (recorded k) (listenKey k data)
      (keyState !hasFlag k.listen LISTEN_BROKEN) := by
  have hstate : (if hasFlag k.listen LISTEN_BROKEN then KS_RELEASED else KS_PRESSED) =
      keyState !hasFlag k.listen LISTEN_BROKEN := by
    cases hasFlag k.listen LISTEN_BROKEN <;> rfl
  rw [ps2Key, recorded_toIdle, hstate, listenKey]
  cases hasFlag k.listen LISTEN_EXTENDED
  · exact recorded_standard _ _
  · exact recorded_extended _ _

def Mode.report : Mode → Option Report
  | .prtscas => some (.printScreen true)
  | .prtscdeas => some (.printScreen false)
  | .pause => none

theorem report_mode {m : Mode} (hmode : modeOf k.listen = some m) :
    report k data = if k.listenIdx = m.last then m.report else none := by
  rw [report, hmode]
  cases m
  · rfl
  · rfl
  · exact (ite_self none).symm

theorem report_no_mode (hmode : modeOf k.listen = none) : report k data =
    if ReadsOn k data then none
    else some (.scan (listenKey k data) (!hasFlag k.listen LISTEN_BROKEN)) := by
  rw [report, hmode]

def noted (table : Key → Nat) (r : Option Report) : Key → Nat :=
  r.elim table fun r => Function.update table r.about (keyState r.pressed)

theorem recorded_last {m : Mode} (hmode : modeOf k.listen = some m) (hidx : k.listenIdx = m.last) :
    recorded (ps2KeyboardInterrupt img k data).1 = noted (recorded k) m.report := by
  simp only [modeOf] at hmode
  split_ifs at hmode with h₁ h₂ h₃ <;> cases hmode
  · rw [ps2KeyboardInterrupt, if_pos h₁, if_pos (show k.listenIdx = 3 from hidx)]
    exact recorded_standard _ _
  · rw [ps2KeyboardInterrupt, if_neg h₁, if_pos h₂, if_pos (show k.listenIdx = 5 from hidx)]
    exact recorded_standard _ _
  · rw [ps2KeyboardInterrupt, if_neg h₁, if_neg h₂, if_pos h₃,
      if_pos (show k.listenIdx = 7 from hidx)]
    rfl

theorem recorded_interrupt (img : Image) (k : PS2Keyboard) (data : UInt8) :
    recorded (ps2KeyboardInterrupt img k data).1 = noted (recorded k) (report k data) := by
  cases hmode : modeOf k.listen with
  | some m =>
    rw [report_mode hmode]
    by_cases hidx : k.listenIdx = m.last
    · rw [if_pos hidx]
      exact recorded_last hmode hidx
    · rw [interrupt_before_last img hmode hidx, if_neg hidx]
      rfl
  | none =>
    rw [interrupt_no_mode img hmode, report_no_mode hmode]
    by_cases hreads : ReadsOn k data
    · obtain ⟨mode, hswitch⟩ := switch_readsOn img hreads
      rw [hswitch, if_pos hreads]
      rfl
    · rw [switch_key hreads, recorded_key, if_neg hreads]
      rfl

theorem lastPressed_append (log : List Report) (r : Report) (key : Key) :
    lastPressed (log ++ [r]) key = if r.about = key then r.pressed else lastPressed log key := by
  rw [lastPressed, List.filter_append]
  by_cases habout : r.about = key
  · rw [List.filter_cons_of_pos (by simpa using habout), List.filter_nil,
      List.getLast?_concat, if_pos habout]
    rfl
  · rw [List.filter_cons_of_neg (by simpa using habout), List.filter_nil, List.append_nil,
      if_neg habout, lastPressed]

theorem noted_lastPressed (log : List Report) (r : Option Report) :
    noted (fun key => keyState (lastPressed log key)) r =
      fun key => keyState (lastPressed (log ++ r.toList) key) := by
  cases r with
  | none => simp [noted]
  | some r =>
    funext key
    rw [Option.toList_some, lastPressed_append, noted, Option.elim_some]
    by_cases habout : r.about = key
    · rw [if_pos habout, ← habout]
      exact Function.update_self _ _ _
    · rw [if_neg habout]
      exact Function.update_of_ne (Ne.symm habout) _ _

theorem afterBytes_append_singleton (bytes : List UInt8) (data : UInt8) :
    afterBytes img (bytes ++ [data]) =
      (ps2KeyboardInterrupt img (afterBytes img bytes) data).1 := by
  rw [afterBytes, ps2Feed, feed_append_singleton]
  rfl

theorem reports_append_singleton (bytes : List UInt8) (data : UInt8) :
    reports img (bytes ++ [data]) =
      reports img bytes ++ (report (afterBytes img bytes) data).toList := by
  have hstate : (feed (reportStep img) bootKeyboard bytes).1 = afterBytes img bytes := by
    rw [afterBytes, ps2Feed]
    refine feed_state_congr (fun _ _ => ?_) bytes
    rfl
  rw [reports, feed_append_singleton, hstate]
  rfl

theorem recorded_afterBytes (bytes : List UInt8) : recorded (afterBytes img bytes) =
    fun key => keyState (lastPressed (reports img bytes) key) := by
  induction bytes using List.reverseRecOn with
  | nil =>
    funext key
    exact ite_self 0
  | append_singleton bytes data ih =>
    rw [afterBytes_append_singleton, recorded_interrupt, ih, noted_lastPressed,
      reports_append_singleton]

theorem ps2Key_event (img : Image) (k : PS2Keyboard) (data : UInt8) :
    ∃ e, (ps2Key img k data).2 = [e] ∧ e.oldState = keyState (hasFlag k.listen LISTEN_BROKEN) ∧
      e.newState = keyState !hasFlag k.listen LISTEN_BROKEN ∧
      e.keycode = ps2ScancodeToKeycode img (hasFlag k.listen LISTEN_EXTENDED) data := by
  refine ⟨_, rfl, rfl, ?_, rfl⟩
  rw [keyState]
  cases hasFlag k.listen LISTEN_BROKEN <;> rfl

theorem report_scan {key : Key} {pressed : Bool} (h : report k data = some (.scan key pressed)) :
    modeOf k.listen = none ∧ ¬ReadsOn k data ∧ key = listenKey k data ∧
      pressed = !hasFlag k.listen LISTEN_BROKEN := by
  cases hmode : modeOf k.listen with
  | some m =>
    rw [report_mode hmode] at h
    split at h
    · cases m <;> cases h
    · cases h
  | none =>
    rw [report_no_mode hmode] at h
    split at h
    · cases h
    · cases h
      exact ⟨rfl, ‹_›, rfl, rfl⟩

theorem trueEvents_iff (table : Key → Bool)
    (htable : recorded k = fun key => keyState (table key)) :
    TrueEvents img k data ↔
      ∀ key pressed, report k data = some (.scan key pressed) → pressed ≠ table key := by
  constructor
  · intro htrue key pressed hreport
    obtain ⟨hmode, hreads, rfl, rfl⟩ := report_scan hreport
    obtain ⟨e, he, hold, -⟩ := ps2Key_event img k data
    have hevent := htrue hmode e
    rw [interrupt_no_mode img hmode, switch_key hreads, he] at hevent
    have hrecorded := (hevent (List.mem_singleton_self e)).1
    rw [hold, htable, keyState_inj] at hrecorded
    rw [← hrecorded]
    exact Bool.not_ne_self _
  · intro hturn hmode e he
    rw [interrupt_no_mode img hmode] at he ⊢
    by_cases hreads : ReadsOn k data
    · obtain ⟨mode, hswitch⟩ := switch_readsOn img hreads
      rw [hswitch] at he
      exact absurd he List.not_mem_nil
    · obtain ⟨e', he', hold, hnew, -⟩ := ps2Key_event img k data
      rw [switch_key hreads, he'] at he
      obtain rfl := List.mem_singleton.mp he
      have hne := hturn _ _ ((report_no_mode hmode).trans (if_neg hreads))
      rw [switch_key hreads, recorded_key, Function.update_self, hold, htable, keyState_inj]
      exact ⟨by simpa using hne, hnew⟩

theorem alternates_append (log : List Report) (r : Option Report) :
    Alternates (log ++ r.toList) ↔ Alternates log ∧ ∀ key pressed, r = some (.scan key pressed) →
      pressed ≠ lastPressed log key := by
  cases r with
  | none => simp
  | some r =>
    rw [Option.toList_some, Alternates, along_append_singleton]
    simp only [Option.some.injEq]
    rfl

/-- Every event for a key has the recorded states exactly if the makes and breaks that the bytes
complete take turns. -/
theorem eventStatesTrue_iff (img : Image) (bytes : List UInt8) :
    EventStatesTrue img bytes ↔ Alternates (reports img bytes) := by
  induction bytes using List.reverseRecOn with
  | nil => exact iff_of_true along_nil along_nil
  | append_singleton bytes data ih =>
    rw [EventStatesTrue, along_append_singleton, reports_append_singleton, alternates_append, ← ih,
      trueEvents_iff _ (recorded_afterBytes bytes)]
    rfl

def plainImage : Image := ⟨1, fun _ => 0, fun _ => 0⟩

/-- Typematic repeat: the second make of a key that is held says it was released. -/
theorem repeat_misreported :
    ¬EventStatesTrue plainImage [PS2_SCANCODE_A, PS2_SCANCODE_A] := by
  intro h
  have htrue := h [PS2_SCANCODE_A] PS2_SCANCODE_A [] rfl
  have hold := (htrue (by decide) _ (List.mem_singleton_self _)).1
  exact absurd hold (by decide)

theorem lookupIndex_eq (bExtend : Bool) (scancode : UInt8) :
    lookupIndex (keycodeMap bExtend) scancode = some scancode.toNat := by
  have hbyte := scancode.toNat_lt
  rw [lookupIndex, keycodeMap]
  refine if_neg ?_
  cases bExtend
  · rw [if_neg (by decide), standard_length]
    omega
  · rw [if_pos rfl, extended_length]
    omega

theorem tablesKept_iff (img : Image) (k : PS2Keyboard) (data : UInt8) : TablesKept img k data ↔
    ∀ key pressed, report k data = some (.scan key pressed) → Listed key := by
  constructor
  · rintro ⟨hreads, -⟩ key pressed hreport
    obtain ⟨hmode, hkey, rfl, -⟩ := report_scan hreport
    refine hreads (_, _) ?_
    rw [keycodeReads, if_pos ⟨hmode, hkey⟩, lookupIndex_eq]
    exact List.mem_singleton_self _
  · intro hlisted
    have hscan : modeOf k.listen = none → ¬ReadsOn k data → Listed (listenKey k data) :=
      fun hmode hreads => hlisted _ _ ((report_no_mode hmode).trans (if_neg hreads))
    refine ⟨fun r hr => ?_, fun hmode hlen e he => ?_⟩
    · rw [keycodeReads] at hr
      split at hr
      · rename_i hkey
        rw [lookupIndex_eq] at hr
        obtain rfl := List.mem_singleton.mp hr
        exact hscan hkey.1 hkey.2
      · exact absurd hr List.not_mem_nil
    · rw [interrupt_no_mode img hmode] at he
      by_cases hreads : ReadsOn k data
      · obtain ⟨mode, hswitch⟩ := switch_readsOn img hreads
        rw [hswitch] at he
        exact absurd he List.not_mem_nil
      · exact absurd (hscan hmode hreads) (Nat.not_lt_of_le hlen)

/-- The handler stays within its tables exactly if every scan code that the bytes complete has an
entry. -/
theorem tableReadsKept_iff (img : Image) (bytes : List UInt8) : TableReadsKept img bytes ↔
    ∀ key pressed, .scan key pressed ∈ reports img bytes → Listed key := by
  induction bytes using List.reverseRecOn with
  | nil => exact iff_of_true along_nil fun _ _ h => absurd h List.not_mem_nil
  | append_singleton bytes data ih =>
    rw [TableReadsKept, along_append_singleton, reports_append_singleton, tablesKept_iff]
    simp only [List.mem_append, Option.mem_toList, or_imp, forall_and, ← ih]
    rfl

/-- The reply to a command that went well is taken for a scan code, far behind the last entry. -/
theorem acknowledge_read_behind : ¬TableReadsKept plainImage [0xFA] := by
  intro h
  have hkept := h [] 0xFA [] rfl
  have hread := hkept.1 (false, 0xFA) (by decide +kernel)
  rw [keycodeMap, if_neg (by decide), standard_length] at hread
  exact absurd hread (by decide)

end Ych.Devdriv
