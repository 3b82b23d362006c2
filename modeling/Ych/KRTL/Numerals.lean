import Ych.Base.ByteStrings
import Ych.Base.Numerals
import Ych.Earlyvideo.Formatters

/-! Numbers as text, in memory: digits are written from the lowest up and turned around in place.
What is left in memory is the text and its terminator. -/
namespace Ych.Krnlstring
open Words Bitmap ByteStrings Numerals

namespace InMemory

def krtlReverseString (m : Bytes) (pStr pStrEnd : Nat) : Bytes :=
  if pStr < pStrEnd then
    krtlReverseString (Function.update (Function.update m pStr (m pStrEnd)) pStrEnd (m pStr))
      (pStr + 1) (pStrEnd - 1)
  else m
termination_by pStrEnd - pStr

def writeDigits (radix hexCasePreference : Nat) : Nat → Bytes → Nat → Nat → Bytes × Nat
  | 0, m, pDest, _ => (m, pDest)
  | fuel + 1, m, pDest, value =>
    if value = 0 then (m, pDest)
    else
      writeDigits radix hexCasePreference fuel
        (Function.update m pDest (krtlDigitChar (value % radix) hexCasePreference)) (pDest + 1)
        (value / radix)

def krtlUnsignedToString (m : Bytes) (pDest value radix hexCasePreference : Nat) : Bytes :=
  if value = 0 then Function.update (Function.update m pDest (ch '0')) (pDest + 1) 0
  else
    let (m, pDestEnd) := writeDigits radix hexCasePreference 64 m pDest value
    krtlReverseString (Function.update m pDestEnd 0) pDest (pDestEnd - 1)

def writeSignedDigits (radix hexCasePreference : Nat) : Nat → Bytes → Nat → Int → Bytes × Nat
  | 0, m, pDest, _ => (m, pDest)
  | fuel + 1, m, pDest, value =>
    if value = 0 then (m, pDest)
    else
      writeSignedDigits radix hexCasePreference fuel
        (Function.update m pDest (krtlDigitChar (toSize (value.tmod radix)) hexCasePreference))
        (pDest + 1) (value.tdiv radix)

def krtlSignedToString (m : Bytes) (pDest : Nat) (value : Int) (radix hexCasePreference : Nat) :
    Bytes :=
  if value = 0 then Function.update (Function.update m pDest (ch '0')) (pDest + 1) 0
  else
    let bHasSign := decide (value < 0)
    let (m, pDestEnd) := writeSignedDigits radix hexCasePreference 64 m pDest
      (if bHasSign then negate value else value)
    let (m, pDestEnd) :=
      if bHasSign then (Function.update m pDestEnd (ch '-'), pDestEnd + 1) else (m, pDestEnd)
    krtlReverseString (Function.update m pDestEnd 0) pDest (pDestEnd - 1)

end InMemory

variable {m : Bytes} {pDest radix hexCase fuel : Nat}

/-! ### The text in memory -/

theorem krtlReverseString_eq (m : Bytes) (a b : Nat) :
    InMemory.krtlReverseString m a b = turned m a b := by
  fun_induction InMemory.krtlReverseString m a b with
  | case1 m a b hlt ih => rw [ih, turned_swap hlt]
  | case2 m a b hge => rw [turned_of_le (Nat.le_of_not_lt hge)]

theorem terminate_turn (m : Bytes) (p : Nat) {text : List CHAR} (h : text ≠ []) :
    InMemory.krtlReverseString (Function.update (put m p text) (p + text.length) 0) p
      (p + text.length - 1) = put m p (krtlReverseString text ++ [0]) := by
  rw [krtlReverseString_eq, ← put_append_singleton, turned_put m p text [0] h, krtlReverseString]

theorem put_zero_text (m : Bytes) (p : Nat) :
    Function.update (Function.update m p (ch '0')) (p + 1) 0 = put m p ([ch '0'] ++ [0]) := by
  rw [put_append_singleton, put_cons, put_nil]
  rfl

theorem writeDigits_eq (m : Bytes) (pDest value : Nat) :
    InMemory.writeDigits radix hexCase fuel m pDest value =
      (put m pDest (digitLoop radix hexCase fuel value),
        pDest + (digitLoop radix hexCase fuel value).length) := by
  induction fuel generalizing m pDest value with
  | zero => rw [InMemory.writeDigits, digitLoop, put_nil, List.length_nil, Nat.add_zero]
  | succ fuel ih =>
    rw [InMemory.writeDigits, digitLoop]
    split
    · rw [put_nil, List.length_nil, Nat.add_zero]
    · rw [ih, put_cons, List.length_cons]
      congr 1
      omega

theorem writeSignedDigits_eq (m : Bytes) (pDest : Nat) (value : Int) :
    InMemory.writeSignedDigits radix hexCase fuel m pDest value =
      (put m pDest (signedDigitLoop radix hexCase fuel value),
        pDest + (signedDigitLoop radix hexCase fuel value).length) := by
  induction fuel generalizing m pDest value with
  | zero => rw [InMemory.writeSignedDigits, signedDigitLoop, put_nil, List.length_nil, Nat.add_zero]
  | succ fuel ih =>
    rw [InMemory.writeSignedDigits, signedDigitLoop]
    split
    · rw [put_nil, List.length_nil, Nat.add_zero]
    · rw [ih, put_cons, List.length_cons]
      congr 1
      omega

theorem inMemory_krtlUnsignedToString (m : Bytes) (pDest value radix hexCase : Nat) :
    InMemory.krtlUnsignedToString m pDest value radix hexCase =
      put m pDest (krtlUnsignedToString value radix hexCase ++ [0]) := by
  rw [InMemory.krtlUnsignedToString, krtlUnsignedToString]
  split
  · exact put_zero_text m pDest
  · rename_i hne
    have htext : digitLoop radix hexCase 64 value ≠ [] := by
      rw [digitLoop, if_neg hne]
      exact List.cons_ne_nil _ _
    rw [writeDigits_eq]
    exact terminate_turn m pDest htext

theorem inMemory_krtlSignedToString (m : Bytes) (pDest : Nat) (value : Int)
    (radix hexCase : Nat) :
    InMemory.krtlSignedToString m pDest value radix hexCase =
      put m pDest (krtlSignedToString value radix hexCase ++ [0]) := by
  rw [InMemory.krtlSignedToString, krtlSignedToString]
  by_cases hzero : value = 0
  · rw [if_pos hzero, if_pos hzero]
    exact put_zero_text m pDest
  · rw [if_neg hzero, if_neg hzero]
    dsimp only
    rw [writeSignedDigits_eq]
    by_cases hneg : value < 0
    · simp only [hneg, decide_true, if_true]
      generalize signedDigitLoop radix hexCase 64 (negate value) = digits
      have hlen : pDest + digits.length + 1 = pDest + (digits ++ [ch '-']).length := by
        rw [List.length_append, List.length_singleton, Nat.add_assoc]
      rw [← put_append_singleton, hlen]
      exact terminate_turn m pDest (List.append_ne_nil_of_right_ne_nil _ (List.cons_ne_nil _ _))
    · have htext : signedDigitLoop radix hexCase 64 value ≠ [] := by
        rw [signedDigitLoop, if_neg hzero]
        exact List.cons_ne_nil _ _
      simp only [hneg, decide_false, if_false, List.append_nil, Bool.false_eq_true]
      exact terminate_turn m pDest htext

/-! ### Numerals -/

def digitSign (hexCasePreference d : Nat) : CHAR :=
  (chars (if hexCasePreference = KRTL_HEX_UPPERCASE then "0123456789ABCDEF"
    else "0123456789abcdef")).getD d 0

def digitValue (c : CHAR) : Nat :=
  if c.toNat < 58 then c.toNat - 48 else if c.toNat < 71 then c.toNat - 55 else c.toNat - 87

abbrev CanonicalNumeral (radix hexCase : Nat) := Numeral (digitSign hexCase) digitValue radix

def Radix (radix : Nat) : Prop :=
  radix = KRTL_RADIX_OCTAL ∨ radix = KRTL_RADIX_DECIMAL ∨ radix = KRTL_RADIX_HEXADECIMAL

theorem Radix.bounds (h : Radix radix) : 1 < radix ∧ radix ≤ 16 := by
  obtain rfl | rfl | rfl := h <;> decide

theorem digitValue_digitSign {d : Nat} (hd : d < 16) : digitValue (digitSign hexCase d) = d := by
  unfold digitSign
  split
  · revert d
    decide
  · revert d
    decide

theorem krtlDigitChar_eq {d : Nat} (hd : d < 16) :
    krtlDigitChar d hexCase = digitSign hexCase d := by
  unfold krtlDigitChar digitSign
  by_cases hcase : hexCase = KRTL_HEX_UPPERCASE
  · rw [if_pos hcase, if_pos hcase]
    revert d
    decide
  · rw [if_neg hcase, if_neg hcase]
    revert d
    decide

theorem digitLoop_eq (hradix : Radix radix) {value : Nat} (h : value < radix ^ fuel) :
    digitLoop radix hexCase fuel value = (Nat.digits radix value).map (digitSign hexCase) := by
  obtain ⟨hone, hsixteen⟩ := hradix.bounds
  induction fuel generalizing value with
  | zero =>
    rw [Nat.pow_zero, Nat.lt_one_iff] at h
    rw [h, Nat.digits_zero]
    rfl
  | succ fuel ih =>
    rw [digitLoop]
    split
    · rename_i hzero
      rw [hzero, Nat.digits_zero]
      rfl
    · rename_i hne
      have hdigit := Nat.mod_lt value (Nat.zero_lt_of_lt hone)
      have hrest : value / radix < radix ^ fuel := by
        rw [Nat.div_lt_iff_lt_mul (Nat.zero_lt_of_lt hone)]
        exact h
      rw [Nat.digits_def' hone (Nat.pos_of_ne_zero hne), List.map_cons, ih hrest,
        krtlDigitChar_eq (hdigit.trans_le hsixteen)]

theorem lt_radix_pow (hradix : Radix radix) {value : Nat} (h : value < 2 ^ 64) :
    value < radix ^ 64 :=
  h.trans_le (Nat.pow_le_pow_left hradix.bounds.1 64)

theorem digitLoop_numeral (hradix : Radix radix) (hexCase : Nat) {value : Nat}
    (h : value < 2 ^ 64) (hne : value ≠ 0) :
    CanonicalNumeral radix hexCase value
      (krtlReverseString (digitLoop radix hexCase 64 value)) := by
  obtain ⟨hone, hsixteen⟩ := hradix.bounds
  rw [digitLoop_eq hradix (lt_radix_pow hradix h), krtlReverseString]
  exact numeral_digits (fun d hd => digitValue_digitSign (hd.trans_le hsixteen)) hone hne

theorem zero_numeral (hradix : Radix radix) (hexCase : Nat) :
    CanonicalNumeral radix hexCase 0 [ch '0'] := by
  obtain ⟨hone, hsixteen⟩ := hradix.bounds
  have hzero : ch '0' = digitSign hexCase 0 := by
    unfold digitSign
    split <;> rfl
  rw [hzero]
  exact numeral_zero (fun d hd => digitValue_digitSign (hd.trans_le hsixteen))
    (Nat.zero_lt_of_lt hone)

theorem krtlUnsignedToString_numeral (hradix : Radix radix) (hexCase : Nat) {value : Nat}
    (h : value < 2 ^ 64) :
    CanonicalNumeral radix hexCase value (krtlUnsignedToString value radix hexCase) := by
  rw [krtlUnsignedToString]
  split
  · rename_i hzero
    rw [hzero]
    exact zero_numeral hradix hexCase
  · rename_i hne
    exact digitLoop_numeral hradix hexCase h hne

theorem digitLoop_length_le {value k : Nat} (h : value < radix ^ k) :
    (digitLoop radix hexCase fuel value).length ≤ k := by
  induction fuel generalizing value k with
  | zero => exact Nat.zero_le k
  | succ fuel ih =>
    rw [digitLoop]
    split
    · exact Nat.zero_le k
    · rename_i hne
      cases k with
      | zero => exact absurd (Nat.lt_one_iff.mp h) hne
      | succ k => exact Nat.succ_le_succ (ih (Nat.div_lt_of_lt_mul (by rwa [← Nat.pow_succ'])))

/-- Memory is left with the numeral and its terminator; in decimal, 32-bit values fit
`Buf[11]`. -/
theorem krtlUnsignedToString_canonical (m : Bytes) (pDest : Nat) (value : BitVec 64)
    (radix hexCase : Nat) (hradix : Radix radix) :
    ∃ text, CanonicalNumeral radix hexCase value.toNat text ∧
      InMemory.krtlUnsignedToString m pDest value.toNat radix hexCase = put m pDest (text ++ [0]) ∧
      (value.toNat < 2 ^ 32 → radix = KRTL_RADIX_DECIMAL → (text ++ [0]).length ≤ 11) := by
  refine ⟨krtlUnsignedToString value.toNat radix hexCase,
    krtlUnsignedToString_numeral hradix hexCase value.isLt,
    inMemory_krtlUnsignedToString m pDest value.toNat radix hexCase, fun hsmall hdecimal => ?_⟩
  rw [List.length_append, List.length_singleton, krtlUnsignedToString]
  split
  · decide
  · have hdigits : (digitLoop radix hexCase 64 value.toNat).length ≤ 10 := by
      refine digitLoop_length_le (hsmall.trans ?_)
      rw [hdecimal]
      decide
    rw [krtlReverseString, List.length_reverse]
    omega

theorem krtlUnsignedToString_canonical_largest : ∃ text,
    CanonicalNumeral 10 0 (0xFFFFFFFF#64).toNat text ∧
      InMemory.krtlUnsignedToString (fun _ => 0) 64 (0xFFFFFFFF#64).toNat 10 0 =
        put (fun _ => 0) 64 (text ++ [0]) ∧
      ((0xFFFFFFFF#64).toNat < 2 ^ 32 → 10 = KRTL_RADIX_DECIMAL → (text ++ [0]).length ≤ 11) :=
  krtlUnsignedToString_canonical (fun _ => 0) 64 0xFFFFFFFF#64 10 0 (Or.inr (Or.inl rfl))

/-! ### Signed numbers -/

def signedText (value : Int) (text : List CHAR) : List CHAR :=
  if value < 0 then ch '-' :: text else text

def readSigned (radix : Nat) : List CHAR → Int
  | [] => 0
  | c :: text =>
    if c = ch '-' then -readDigits digitValue radix text
    else readDigits digitValue radix (c :: text)

/-- The value is written as it is to be, wherever it is written to, and reads back. -/
def SignedWritten (value : Int) (radix hexCase : Nat) : Prop :=
  ∃ text, CanonicalNumeral radix hexCase value.natAbs text ∧
    (∀ m pDest, InMemory.krtlSignedToString m pDest value radix hexCase =
      put m pDest (signedText value text ++ [0])) ∧
    readSigned radix (signedText value text) = value

theorem digitSign_ne_minus {d : Nat} (hd : d < 16) : digitSign hexCase d ≠ ch '-' := by
  unfold digitSign
  split
  · revert d
    decide
  · revert d
    decide

theorem readSigned_signedText (hradix : Radix radix) {value : Int} {text : List CHAR}
    (h : CanonicalNumeral radix hexCase value.natAbs text) :
    readSigned radix (signedText value text) = value := by
  rw [signedText]
  split
  · rw [readSigned, if_pos rfl, h.reads]
    omega
  · cases text with
    | nil => exact absurd rfl h.ne
    | cons c text =>
      obtain ⟨d, hd, rfl⟩ := h.digits c List.mem_cons_self
      rw [readSigned, if_neg (digitSign_ne_minus (hd.trans_le hradix.bounds.2)), h.reads]
      omega

theorem signedWritten_of_ne (hradix : Radix radix) (hexCase : Nat) {value : Int}
    (hlow : -2 ^ 63 < value) (hhigh : value < 2 ^ 63) : SignedWritten value radix hexCase := by
  obtain ⟨hone, hsixteen⟩ := hradix.bounds
  have htext : ∃ text, CanonicalNumeral radix hexCase value.natAbs text ∧
      krtlSignedToString value radix hexCase = signedText value text := by
    rw [Dwtp.krtlSignedToString_natAbs (by omega) (by omega) hlow]
    by_cases hzero : value = 0
    · rw [hzero]
      exact ⟨[ch '0'], zero_numeral hradix hexCase, rfl⟩
    · refine ⟨_, digitLoop_numeral hradix hexCase (by omega) (Int.natAbs_ne_zero.mpr hzero), ?_⟩
      rw [if_neg hzero, signedText, krtlReverseString, krtlReverseString, List.reverse_append]
      split
      · rfl
      · rfl
  obtain ⟨text, hnumeral, htext⟩ := htext
  refine ⟨text, hnumeral, fun m pDest => ?_, readSigned_signedText hradix hnumeral⟩
  rw [inMemory_krtlSignedToString, htext]

theorem krtlSignedToString_lower (hcase : hexCase ≠ KRTL_HEX_UPPERCASE) (value : Int)
    (radix : Nat) : krtlSignedToString value radix hexCase = krtlSignedToString value radix 0 := by
  have hchar : ∀ r, krtlDigitChar r hexCase = krtlDigitChar r 0 := by
    intro r
    rw [krtlDigitChar, krtlDigitChar, if_neg hcase,
      if_neg (show ¬(0 = KRTL_HEX_UPPERCASE) by decide)]
  have hloop : ∀ fuel value, signedDigitLoop radix hexCase fuel value =
      signedDigitLoop radix 0 fuel value := by
    intro fuel
    induction fuel with
    | zero => exact fun _ => rfl
    | succ fuel ih =>
      intro value
      rw [signedDigitLoop, signedDigitLoop, hchar, ih]
  rw [krtlSignedToString, krtlSignedToString, hloop]

/-- The remainders of the lowest value are negative, and no digits come of them. -/
theorem lowest_misread (hradix : Radix radix) (hexCase : Nat) :
    readDigits digitValue radix (krtlSignedToString (-2 ^ 63) radix hexCase).tail ≠ 2 ^ 63 := by
  by_cases hcase : hexCase = KRTL_HEX_UPPERCASE
  · rw [hcase]
    obtain rfl | rfl | rfl := hradix <;> decide +kernel
  · rw [krtlSignedToString_lower hcase]
    obtain rfl | rfl | rfl := hradix <;> decide +kernel

theorem not_signedWritten_lowest (hradix : Radix radix) (hexCase : Nat) :
    ¬SignedWritten (-2 ^ 63) radix hexCase := by
  rintro ⟨text, hnumeral, hwritten, -⟩
  have htext : krtlSignedToString (-2 ^ 63) radix hexCase ++ [0] =
      signedText (-2 ^ 63) text ++ [0] :=
    put_inj fun m => (inMemory_krtlSignedToString m 0 _ _ _).symm.trans (hwritten m 0)
  have htail := congrArg List.tail (List.append_cancel_right htext)
  refine lowest_misread hradix hexCase ?_
  rw [htail]
  exact hnumeral.reads

/-- Every 64-bit value is written as it is to be, but for the lowest, whose absolute value is no
64-bit value. -/
theorem signedWritten_iff (value : BitVec 64) (radix hexCase : Nat) (hradix : Radix radix) :
    SignedWritten value.toInt radix hexCase ↔ value.toInt ≠ -2 ^ 63 := by
  constructor
  · intro hwritten hlowest
    rw [hlowest] at hwritten
    exact not_signedWritten_lowest hradix hexCase hwritten
  · intro hne
    have hlow := value.le_toInt
    have hhigh := value.toInt_lt
    exact signedWritten_of_ne hradix hexCase (by omega) (by omega)

theorem signedWritten_iff_number : SignedWritten (-50#64).toInt 10 0 ↔ (-50#64).toInt ≠ -2 ^ 63 :=
  signedWritten_iff (-50#64) 10 0 (Or.inr (Or.inl rfl))

theorem lowest_not_written : ¬∀ (value : BitVec 64) (radix hexCase : Nat), Radix radix →
    SignedWritten value.toInt radix hexCase := by
  intro hall
  have hlowest : (BitVec.intMin 64).toInt = -2 ^ 63 := by decide
  have hwritten := hall (BitVec.intMin 64) 10 0 (Or.inr (Or.inl rfl))
  rw [hlowest] at hwritten
  exact not_signedWritten_lowest (Or.inr (Or.inl rfl)) 0 hwritten

end Ych.Krnlstring
