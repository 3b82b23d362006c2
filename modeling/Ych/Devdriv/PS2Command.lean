import Mathlib.Data.List.GetD
import Mathlib.Data.List.Infix

/-! Issuing a command to the PS/2 controller or keyboard, byte by byte, and what becomes of it when
the device asks for the bytes again. -/
namespace Ych.Devdriv

def PS2_PORT_DATA : Nat := 0x60
def PS2_PORT_CMD : Nat := 0x64
def PS2_RESPONSE_ACK : UInt8 := 0xFA
def PS2_RESPONSE_RESEND : UInt8 := 0xFE
def MAX_RESENDS : Nat := 3

inductive PortOp where
  | waitInputBufferEmpty
  | waitOutputBufferEmpty
  | output (port : Nat) (byte : UInt8)
  | input (port : Nat) (byte : UInt8)
  deriving DecidableEq

structure Exchange where
  port : Nat
  byte : UInt8
  response : UInt8
  deriving DecidableEq

def Exchange.ops (toCmd : Bool) (x : Exchange) : List PortOp :=
  [.waitInputBufferEmpty, .output x.port x.byte,
    if toCmd then .waitInputBufferEmpty else .waitOutputBufferEmpty,
    .input PS2_PORT_DATA x.response]

variable (command : List UInt8) (toCmd : Bool) (responses : Nat → UInt8)

/-- The loop from byte `i` on; `k` responses have been read. The step of the loop follows the
assignment `i = 0`, so that a resend goes on at byte 1. -/
def issueLoop (i nrResends k : Nat) : List Exchange :=
  if i < command.length ∧ nrResends < MAX_RESENDS then
    ⟨if i = 0 ∧ toCmd then PS2_PORT_CMD else PS2_PORT_DATA, command.getD i 0, responses k⟩ ::
      if responses k = PS2_RESPONSE_RESEND then issueLoop (0 + 1) (nrResends + 1) (k + 1)
      else issueLoop (i + 1) nrResends (k + 1)
  else []
termination_by (MAX_RESENDS - nrResends, command.length - i)

/-- The port accesses and the response returned; there is none for an empty command. -/
def ps2IssueCommand : List PortOp × Option UInt8 :=
  let xs := issueLoop command toCmd responses 0 0 0
  (xs.flatMap (Exchange.ops toCmd), xs.getLast?.map Exchange.response)

/-- What is sent in a piece, cut after every request to resend. -/
def attempts : List Exchange → List (List Exchange)
  | [] => [[]]
  | x :: xs =>
    if x.response = PS2_RESPONSE_RESEND then [x] :: attempts xs
    else (attempts xs).modifyHead (x :: ·)

/-- Every attempt sends the command from its first byte on; there is another one after every request
to resend but the last that is allowed; and the final response is the one to a whole command. -/
structure CommandSent (xs : List Exchange) (response : Option UInt8) : Prop where
  prefixes : ∀ a ∈ attempts xs, a.map Exchange.byte <+: command
  again : (attempts xs).length ≤ MAX_RESENDS + 1 ∧
    ([] ∈ attempts xs → (attempts xs).length = MAX_RESENDS + 1)
  complete : response ≠ some PS2_RESPONSE_RESEND →
    ∃ a ∈ (attempts xs).getLast?, a.map Exchange.byte = command

/-- The first request to resend from response `k` on is the one after `j` others. -/
def FirstResend (k j : Nat) : Prop :=
  responses (k + j) = PS2_RESPONSE_RESEND ∧ ∀ l < j, responses (k + l) ≠ PS2_RESPONSE_RESEND

def NoResend : Prop := ∀ j < command.length, responses j ≠ PS2_RESPONSE_RESEND

/-- The command is rejected three times before an attempt is through, and as far as it is resent
its bytes are all the same. -/
def ResentAlike : Prop :=
  ∃ j₁ j₂ j₃, j₁ < command.length ∧ j₂ + 1 < command.length ∧ j₃ + 1 < command.length ∧
    FirstResend responses 0 j₁ ∧ FirstResend responses (j₁ + 1) j₂ ∧
    FirstResend responses (j₁ + 1 + (j₂ + 1)) j₃ ∧
    ∀ m ≤ max j₂ j₃ + 1, command.getD m 0 = command.getD 0 0

variable {command toCmd responses} {i r k j n : Nat} {xs ys : List Exchange} {x : Exchange}

theorem attempts_cons (xs : List Exchange) : ∃ a as, attempts xs = a :: as := by
  induction xs with
  | nil => exact ⟨[], [], rfl⟩
  | cons x xs ih =>
    obtain ⟨a, as, h⟩ := ih
    rw [attempts]
    split
    · exact ⟨_, _, rfl⟩
    · rw [h]
      exact ⟨_, _, rfl⟩

theorem attempts_flatten (xs : List Exchange) : (attempts xs).flatten = xs := by
  induction xs with
  | nil => rfl
  | cons x xs ih =>
    rw [attempts]
    split
    · rw [List.flatten_cons, ih, List.singleton_append]
    · obtain ⟨a, as, h⟩ := attempts_cons xs
      rw [h] at ih ⊢
      rw [List.modifyHead_cons, List.flatten_cons, List.cons_append, ← List.flatten_cons, ih]

theorem attempts_getLast (hne : xs ≠ []) : (attempts xs).getLast? = some [] ↔
    xs.getLast?.map Exchange.response = some PS2_RESPONSE_RESEND := by
  induction xs with
  | nil => exact absurd rfl hne
  | cons x xs ih =>
    cases xs with
    | nil =>
      rw [attempts]
      split
      · rename_i hx
        exact iff_of_true rfl (congrArg some hx)
      · rename_i hx
        exact iff_of_false (by simp [attempts]) (by simpa using hx)
    | cons y ys =>
      have hih := ih (List.cons_ne_nil y ys)
      obtain ⟨a, as, h⟩ := attempts_cons (y :: ys)
      have hflat := attempts_flatten (y :: ys)
      rw [List.getLast?_cons_cons, ← hih, attempts]
      rw [h] at hflat ⊢
      split
      · rw [List.getLast?_cons_cons]
      · rw [List.modifyHead_cons]
        cases as with
        | nil =>
          refine iff_of_false (by simp) fun hlast => ?_
          obtain rfl : a = [] := by simpa using hlast
          simp at hflat
        | cons b as => rw [List.getLast?_cons_cons, List.getLast?_cons_cons]

theorem attempts_accepted (h : ∀ x ∈ xs, x.response ≠ PS2_RESPONSE_RESEND) :
    attempts xs = [xs] := by
  induction xs with
  | nil => rfl
  | cons x xs ih =>
    obtain ⟨hx, hxs⟩ := List.forall_mem_cons.mp h
    rw [attempts, if_neg hx, ih hxs]
    rfl

theorem attempts_rejected (h : ∀ x ∈ xs, x.response ≠ PS2_RESPONSE_RESEND)
    (hx : x.response = PS2_RESPONSE_RESEND) (ys : List Exchange) :
    attempts (xs ++ x :: ys) = (xs ++ [x]) :: attempts ys := by
  induction xs with
  | nil => rw [List.nil_append, attempts, if_pos hx, List.nil_append]
  | cons y xs ih =>
    obtain ⟨hy, hxs⟩ := List.forall_mem_cons.mp h
    rw [List.cons_append, attempts, if_neg hy, ih hxs]
    rfl

variable (command toCmd responses) in
def issueRound (i k : Nat) : Exchange :=
  ⟨if i = 0 ∧ toCmd then PS2_PORT_CMD else PS2_PORT_DATA, command.getD i 0, responses k⟩

variable (command toCmd responses) in
def issueRounds (i k n : Nat) : List Exchange :=
  (List.range n).map fun j => issueRound command toCmd responses (i + j) (k + j)

theorem issueRounds_succ (i k n : Nat) : issueRounds command toCmd responses i k (n + 1) =
    issueRound command toCmd responses i k ::
      issueRounds command toCmd responses (i + 1) (k + 1) n := by
  rw [issueRounds, List.range_succ_eq_map, List.map_cons, List.map_map]
  refine congrArg _ (List.map_congr_left fun j _ => ?_)
  dsimp only [Function.comp]
  rw [Nat.add_right_comm i, Nat.add_right_comm k]
  rfl

theorem issueRounds_bytes (toCmd : Bool) (responses : Nat → UInt8) (k : Nat)
    (h : i + n ≤ command.length) :
    (issueRounds command toCmd responses i k n).map Exchange.byte =
      (command.drop i).take n := by
  refine List.ext_getElem (by simp [issueRounds]; omega) fun m h₁ h₂ => ?_
  rw [List.length_map, issueRounds, List.length_map, List.length_range] at h₁
  simp only [issueRounds, List.getElem_map, List.getElem_range, List.getElem_take,
    List.getElem_drop, issueRound]
  exact List.getD_eq_getElem _ _ (by omega)

theorem issueRounds_accepted (h : ∀ l < n, responses (k + l) ≠ PS2_RESPONSE_RESEND) :
    ∀ x ∈ issueRounds command toCmd responses i k n, x.response ≠ PS2_RESPONSE_RESEND := by
  intro x hx
  obtain ⟨l, hl, rfl⟩ := List.mem_map.mp hx
  exact h l (List.mem_range.mp hl)

theorem issueLoop_accepted (hr : r < MAX_RESENDS) (hn : i + n = command.length)
    (h : ∀ l < n, responses (k + l) ≠ PS2_RESPONSE_RESEND) :
    issueLoop command toCmd responses i r k = issueRounds command toCmd responses i k n := by
  induction n generalizing i k with
  | zero =>
    rw [issueLoop, if_neg (by omega)]
    rfl
  | succ n ih =>
    have hfirst : responses k ≠ PS2_RESPONSE_RESEND := h 0 (by omega)
    have hrest := ih (i := i + 1) (k := k + 1) (by omega) fun l hl => by
      rw [Nat.add_assoc, Nat.add_comm 1 l]
      exact h (l + 1) (by omega)
    rw [issueLoop, if_pos ⟨by omega, hr⟩, if_neg hfirst, hrest, issueRounds_succ]
    rfl

theorem issueLoop_rejected (hr : r < MAX_RESENDS) (hj : i + j < command.length)
    (h : FirstResend responses k j) : issueLoop command toCmd responses i r k =
      issueRounds command toCmd responses i k j ++
        issueRound command toCmd responses (i + j) (k + j) ::
          issueLoop command toCmd responses 1 (r + 1) (k + j + 1) := by
  induction j generalizing i k with
  | zero =>
    have hfirst : responses k = PS2_RESPONSE_RESEND := h.1
    rw [issueLoop, if_pos ⟨by omega, hr⟩, if_pos hfirst]
    rfl
  | succ j ih =>
    have hfirst : responses k ≠ PS2_RESPONSE_RESEND := h.2 0 (by omega)
    have hnext : FirstResend responses (k + 1) j := by
      refine ⟨by rw [Nat.add_right_comm]; exact h.1, fun l hl => ?_⟩
      rw [Nat.add_right_comm]
      exact h.2 (l + 1) (by omega)
    have hrest := ih (i := i + 1) (k := k + 1) (by omega) hnext
    rw [issueLoop, if_pos ⟨by omega, hr⟩, if_neg hfirst, hrest, issueRounds_succ,
      Nat.add_right_comm i 1 j, Nat.add_right_comm k 1 j]
    rfl

/-- The resent bytes begin the command exactly if they are the byte it begins with. -/
theorem resent_prefix (hj : j + 1 < command.length) :
    (command.drop 1).take (j + 1) <+: command ↔
      ∀ m ≤ j + 1, command.getD m 0 = command.getD 0 0 := by
  rw [List.prefix_iff_eq_take]
  have hlen : ((command.drop 1).take (j + 1)).length = j + 1 := by
    rw [List.length_take, List.length_drop]
    omega
  rw [hlen]
  have hstep : (command.drop 1).take (j + 1) = command.take (j + 1) ↔
      ∀ m < j + 1, command.getD (m + 1) 0 = command.getD m 0 := by
    have htake : ∀ {l : List UInt8} {m}, m < j + 1 → (l.take (j + 1)).getD m 0 = l.getD m 0 := by
      intro l m hm
      rw [List.getD_eq_getElem?_getD, List.getElem?_take_of_lt hm, ← List.getD_eq_getElem?_getD]
    have hdrop : ∀ m, (command.drop 1).getD m 0 = command.getD (m + 1) 0 := by
      intro m
      rw [List.getD_eq_getElem?_getD, List.getElem?_drop, Nat.add_comm,
        ← List.getD_eq_getElem?_getD]
    constructor
    · intro h m hm
      rw [← hdrop, ← htake hm, h, htake hm]
    · intro h
      refine List.ext_getElem (by rw [hlen, List.length_take]; omega) fun m h₁ h₂ => ?_
      rw [← List.getD_eq_getElem _ 0, ← List.getD_eq_getElem _ 0, htake (by omega),
        htake (by omega), hdrop]
      exact h m (by omega)
  rw [hstep]
  constructor
  · intro h m hm
    induction m with
    | zero => rfl
    | succ m ih => exact (h m (by omega)).trans (ih (by omega))
  · intro h m hm
    rw [h (m + 1) (by omega), h m (by omega)]

variable (command) in
structure SentFrom (r : Nat) (as : List (List Exchange)) : Prop where
  prefixes : ∀ a ∈ as, a.map Exchange.byte <+: command
  again : r + as.length ≤ MAX_RESENDS + 1 ∧ ([] ∈ as → r + as.length = MAX_RESENDS + 1)
  complete : as.getLast? ≠ some [] → ∃ a ∈ as.getLast?, a.map Exchange.byte = command

theorem commandSent_iff (hne : xs ≠ []) :
    CommandSent command xs (xs.getLast?.map Exchange.response) ↔
      SentFrom command 0 (attempts xs) := by
  have hlast := not_congr (attempts_getLast hne)
  constructor
  · rintro ⟨hparts, hagain, hcomplete⟩
    rw [← Nat.zero_add (attempts xs).length] at hagain
    exact ⟨hparts, hagain, fun h => hcomplete (hlast.mp h)⟩
  · rintro ⟨hparts, hagain, hcomplete⟩
    rw [Nat.zero_add] at hagain
    exact ⟨hparts, hagain, fun h => hcomplete (hlast.mpr h)⟩

theorem sentFrom_cons {a b : List Exchange} {as : List (List Exchange)} (ha : a ≠ []) :
    SentFrom command r (a :: b :: as) ↔
      a.map Exchange.byte <+: command ∧ SentFrom command (r + 1) (b :: as) := by
  have hlen : r + (a :: b :: as).length = r + 1 + (b :: as).length := by
    simp only [List.length_cons]
    omega
  have hmem : [] ∈ a :: b :: as ↔ [] ∈ b :: as := by
    rw [List.mem_cons]
    exact or_iff_right ha.symm
  constructor
  · rintro ⟨hparts, hagain, hcomplete⟩
    rw [hlen, hmem] at hagain
    obtain ⟨hfirst, hrest⟩ := List.forall_mem_cons.mp hparts
    exact ⟨hfirst, hrest, hagain, hcomplete⟩
  · rintro ⟨hfirst, hrest, hagain, hcomplete⟩
    rw [← hlen, ← hmem] at hagain
    exact ⟨List.forall_mem_cons.mpr ⟨hfirst, hrest⟩, hagain, hcomplete⟩

theorem FirstResend.unique {j' : Nat} (h : FirstResend responses k j)
    (h' : FirstResend responses k j') : j = j' := by
  obtain hlt | heq | hlt := Nat.lt_trichotomy j j'
  · exact absurd h.1 (h'.2 j hlt)
  · exact heq
  · exact absurd h'.1 (h.2 j' hlt)

theorem firstResend_or (responses : Nat → UInt8) (k n : Nat) :
    (∀ l < n, responses (k + l) ≠ PS2_RESPONSE_RESEND) ∨ ∃ j < n, FirstResend responses k j := by
  induction n with
  | zero => exact Or.inl fun l hl => absurd hl (Nat.not_lt_zero l)
  | succ n ih =>
    obtain hnone | ⟨j, hj, hfirst⟩ := ih
    · by_cases hlast : responses (k + n) = PS2_RESPONSE_RESEND
      · exact Or.inr ⟨n, Nat.lt_succ_self n, hlast, hnone⟩
      · refine Or.inl fun l hl => ?_
        obtain hlt | rfl := Nat.lt_succ_iff_lt_or_eq.mp hl
        · exact hnone l hlt
        · exact hlast
    · exact Or.inr ⟨j, Nat.lt_succ_of_lt hj, hfirst⟩

theorem attempts_rejectedLoop (hr : r < MAX_RESENDS) (hj : i + j < command.length)
    (h : FirstResend responses k j) : attempts (issueLoop command toCmd responses i r k) =
      issueRounds command toCmd responses i k (j + 1) ::
        attempts (issueLoop command toCmd responses 1 (r + 1) (k + (j + 1))) := by
  have hlast : issueRounds command toCmd responses i k (j + 1) =
      issueRounds command toCmd responses i k j ++
        [issueRound command toCmd responses (i + j) (k + j)] := by
    rw [issueRounds, List.range_succ, List.map_append]
    rfl
  rw [issueLoop_rejected hr hj h, attempts_rejected (issueRounds_accepted h.2) h.1, hlast]
  rfl

theorem sentFrom_accepted (hr : r < MAX_RESENDS) (hi : i ≤ command.length)
    (h : ∀ l < command.length - i, responses (k + l) ≠ PS2_RESPONSE_RESEND) :
    SentFrom command r (attempts (issueLoop command toCmd responses i r k)) ↔
      i = 0 ∧ command ≠ [] := by
  have hend : i + (command.length - i) ≤ command.length := (Nat.add_sub_cancel' hi).le
  have hbytes := issueRounds_bytes toCmd responses k hend
  rw [issueLoop_accepted hr (by omega) h, attempts_accepted (issueRounds_accepted h)]
  generalize issueRounds command toCmd responses i k (command.length - i) = a at hbytes
  constructor
  · rintro ⟨-, ⟨-, hempty⟩, hcomplete⟩
    have hsome : a ≠ [] := by
      rintro rfl
      have hfour := hempty (List.mem_singleton_self _)
      rw [List.length_singleton] at hfour
      omega
    obtain ⟨b, hb, hwhole⟩ := hcomplete fun h => hsome (Option.some.inj h)
    obtain rfl : a = b := Option.some.inj hb
    have hlen := congrArg List.length hbytes
    rw [hwhole, List.length_take, List.length_drop, Nat.min_self] at hlen
    have hpos : 0 < command.length := by
      rw [← hwhole, List.length_map]
      exact List.length_pos_of_ne_nil hsome
    exact ⟨by omega, List.length_pos_iff.mp hpos⟩
  · rintro ⟨rfl, hne⟩
    rw [List.drop_zero, Nat.sub_zero, List.take_length] at hbytes
    have hsome : a ≠ [] := by
      rintro rfl
      exact hne hbytes.symm
    refine ⟨fun b hb => ?_, ⟨?_, fun hempty => ?_⟩, fun _ => ⟨a, rfl, hbytes⟩⟩
    · obtain rfl := List.mem_singleton.mp hb
      rw [hbytes]
    · rw [List.length_singleton]
      omega
    · exact absurd (List.mem_singleton.mp hempty).symm hsome

theorem sentFrom_resent (hr : r < MAX_RESENDS) (hlen : 0 < command.length) :
    SentFrom command r (attempts (issueLoop command toCmd responses 1 r k)) ↔
      ∃ j, j + 1 < command.length ∧ FirstResend responses k j ∧
        (∀ m ≤ j + 1, command.getD m 0 = command.getD 0 0) ∧ SentFrom command (r + 1)
          (attempts (issueLoop command toCmd responses 1 (r + 1) (k + (j + 1)))) := by
  obtain hnone | ⟨j, hj, hfirst⟩ := firstResend_or responses k (command.length - 1)
  · refine iff_of_false ?_ ?_
    · rw [sentFrom_accepted hr hlen hnone]
      exact fun h => absurd h.1 Nat.one_ne_zero
    · rintro ⟨j, hj, hfirst, -⟩
      exact hnone j (by omega) hfirst.1
  · have hiff : SentFrom command r (attempts (issueLoop command toCmd responses 1 r k)) ↔
        (∀ m ≤ j + 1, command.getD m 0 = command.getD 0 0) ∧ SentFrom command (r + 1)
          (attempts (issueLoop command toCmd responses 1 (r + 1) (k + (j + 1)))) := by
      obtain ⟨b, as, hrest⟩ :=
        attempts_cons (issueLoop command toCmd responses 1 (r + 1) (k + (j + 1)))
      rw [attempts_rejectedLoop hr (by omega) hfirst, hrest,
        sentFrom_cons (by rw [issueRounds_succ]; exact List.cons_ne_nil _ _),
        issueRounds_bytes _ _ _ (by omega), resent_prefix (by omega)]
    rw [hiff]
    constructor
    · exact fun h => ⟨j, by omega, hfirst, h⟩
    · rintro ⟨j', -, hfirst', h⟩
      obtain rfl := hfirst.unique hfirst'
      exact h

theorem sentFrom_exhausted (k : Nat) :
    SentFrom command MAX_RESENDS (attempts (issueLoop command toCmd responses 1 MAX_RESENDS k)) := by
  rw [issueLoop, if_neg (fun h => Nat.lt_irrefl _ h.2)]
  refine ⟨fun a ha => ?_, ⟨Nat.le_refl _, fun _ => rfl⟩, fun h => absurd rfl h⟩
  obtain rfl := List.mem_singleton.mp ha
  exact List.nil_prefix

theorem sentFrom_first (hne : command ≠ []) :
    SentFrom command 0 (attempts (issueLoop command toCmd responses 0 0 0)) ↔
      NoResend command responses ∨ ∃ j < command.length, FirstResend responses 0 j ∧
        SentFrom command 1 (attempts (issueLoop command toCmd responses 1 1 (j + 1))) := by
  obtain hnone | ⟨j, hj, hfirst⟩ := firstResend_or responses 0 command.length
  · refine iff_of_true ((sentFrom_accepted (by decide) (Nat.zero_le _) hnone).mpr ⟨rfl, hne⟩)
      (Or.inl fun l hl => ?_)
    rw [← Nat.zero_add l]
    exact hnone l hl
  · have hresend : ¬NoResend command responses := by
      intro h
      refine h j hj ?_
      rw [← Nat.zero_add j]
      exact hfirst.1
    have hiff : SentFrom command 0 (attempts (issueLoop command toCmd responses 0 0 0)) ↔
        SentFrom command 1 (attempts (issueLoop command toCmd responses 1 1 (j + 1))) := by
      obtain ⟨b, as, hrest⟩ := attempts_cons (issueLoop command toCmd responses 1 1 (j + 1))
      rw [attempts_rejectedLoop (by decide) (by omega) hfirst, Nat.zero_add, Nat.zero_add, hrest,
        sentFrom_cons (by rw [issueRounds_succ]; exact List.cons_ne_nil _ _),
        issueRounds_bytes _ _ _ (by omega), List.drop_zero, and_iff_right (List.take_prefix _ _)]
    rw [hiff, or_iff_right hresend]
    constructor
    · exact fun h => ⟨j, hj, hfirst, h⟩
    · rintro ⟨j', -, hfirst', h⟩
      obtain rfl := hfirst.unique hfirst'
      exact h

/-- A command is sent as it should be exactly if the device never asks for it again, or if what the
resends leave out does not show. -/
theorem ps2IssueCommand_sent_iff (toCmd : Bool) (responses : Nat → UInt8) (hne : command ≠ []) :
    CommandSent command (issueLoop command toCmd responses 0 0 0)
      (ps2IssueCommand command toCmd responses).2 ↔
        NoResend command responses ∨ ResentAlike command responses := by
  have hlen := List.length_pos_of_ne_nil hne
  have hxs : issueLoop command toCmd responses 0 0 0 ≠ [] := by
    rw [issueLoop, if_pos ⟨hlen, by decide⟩]
    exact List.cons_ne_nil _ _
  rw [ps2IssueCommand, commandSent_iff hxs, sentFrom_first hne]
  refine or_congr_right ?_
  constructor
  · rintro ⟨j₁, hj₁, hfirst, hsent⟩
    obtain ⟨j₂, hj₂, hsecond, halike₂, hsent⟩ := (sentFrom_resent (by decide) hlen).mp hsent
    obtain ⟨j₃, hj₃, hthird, halike₃, -⟩ := (sentFrom_resent (by decide) hlen).mp hsent
    refine ⟨j₁, j₂, j₃, hj₁, hj₂, hj₃, hfirst, hsecond, hthird, fun m hm => ?_⟩
    obtain hle | hle := Nat.le_total j₂ j₃
    · exact halike₃ m (by omega)
    · exact halike₂ m (by omega)
  · rintro ⟨j₁, j₂, j₃, hj₁, hj₂, hj₃, hfirst, hsecond, hthird, halike⟩
    refine ⟨j₁, hj₁, hfirst, (sentFrom_resent (by decide) hlen).mpr
      ⟨j₂, hj₂, hsecond, fun m hm => halike m (by omega), ?_⟩⟩
    exact (sentFrom_resent (by decide) hlen).mpr
      ⟨j₃, hj₃, hthird, fun m hm => halike m (by omega), sentFrom_exhausted _⟩

theorem ps2IssueCommand_sent_accepted :
    CommandSent [0xF0, 0x02] (issueLoop [0xF0, 0x02] false (fun _ => PS2_RESPONSE_ACK) 0 0 0)
      (ps2IssueCommand [0xF0, 0x02] false fun _ => PS2_RESPONSE_ACK).2 :=
  (ps2IssueCommand_sent_iff false _ (by decide)).mpr (Or.inl fun _ _ =>
    show PS2_RESPONSE_ACK ≠ PS2_RESPONSE_RESEND by decide)

def rejectsOnce (k : Nat) : UInt8 := if k = 0 then PS2_RESPONSE_RESEND else PS2_RESPONSE_ACK

/-- The first byte is rejected, and the answer to the second alone passes for success. -/
theorem first_byte_lost : (ps2IssueCommand [0xF0, 0x02] false rejectsOnce).2 =
      some PS2_RESPONSE_ACK ∧
    ¬CommandSent [0xF0, 0x02] (issueLoop [0xF0, 0x02] false rejectsOnce 0 0 0)
      (ps2IssueCommand [0xF0, 0x02] false rejectsOnce).2 := by
  have hloop : issueLoop [0xF0, 0x02] false rejectsOnce 0 0 0 =
      [⟨PS2_PORT_DATA, 0xF0, PS2_RESPONSE_RESEND⟩, ⟨PS2_PORT_DATA, 0x02, PS2_RESPONSE_ACK⟩] := by
    rw [issueLoop_rejected (j := 0) (by decide) (by decide) ⟨rfl, fun l hl => absurd hl (by omega)⟩,
      issueLoop_accepted (n := 1) (by decide) rfl (by decide)]
    rfl
  rw [ps2IssueCommand, hloop]
  refine ⟨rfl, fun h => ?_⟩
  have hparts := h.prefixes [⟨PS2_PORT_DATA, 0x02, PS2_RESPONSE_ACK⟩] (by decide)
  exact absurd hparts (by decide)

end Ych.Devdriv
