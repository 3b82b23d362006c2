import Ych.Earlyvideo.Formatters

/-! Formatting into a buffer of a given size: the limit is tested before each item of the format
string, and nothing terminates the text. -/
namespace Ych.Krnlstring
open Words Dwtp

/-- A format string as its items, up to its end or the first that is malformed. -/
structure Split (format : List CHAR) (items : List Item) (tail : List CHAR) : Prop where
  valid : ∀ i ∈ items, i.Valid
  eq : format = renderAll items ++ tail
  ends : tail = [] ∨ ∃ rest, tail = ch '%' :: rest ∧ BadSpecifier rest

def pieces (tail : List CHAR) : List Item → VaList → List (List CHAR)
  | [], _ => []
  | i :: items, args =>
    i.written args ((renderAll items ++ tail).headD 0#8) :: pieces tail items (i.argsAfter args)

/-- From a length on, no piece that begins below the limit ends above it. -/
def Fits (limit : Nat) : Nat → List (List CHAR) → Prop
  | _, [] => True
  | len, p :: ps => len < limit → len + p.length ≤ limit ∧ Fits limit (len + p.length) ps

def bufferAfter (old : Nat → CHAR) (text : List CHAR) : Nat → CHAR := fun i => text.getD i (old i)

def Terminated (limit : Nat) (old : Nat → CHAR) (text : List CHAR) : Prop :=
  ∃ i < limit, bufferAfter old text i = 0

structure LimitKept (limit : INT) (format : CString) (args : VaList) (old : Nat → CHAR) :
    Prop where
  within : (krtlFormatStringVariadic limit format args).2.length ≤ limit.toNat
  result : (krtlFormatStringVariadic limit format args).1.toInt ≤ limit.toInt
  terminated : 0 ≤ (krtlFormatStringVariadic limit format args).1.toInt →
    Terminated limit.toNat old (krtlFormatStringVariadic limit format args).2

variable {limit : INT} {format tail out : List CHAR} {items : List Item} {args : VaList}
  {old : Nat → CHAR}

theorem exists_split (format : List CHAR) : ∃ items tail, Split format items tail := by
  induction hlen : format.length using Nat.strong_induction_on generalizing format with
  | _ len ih =>
    obtain rfl | ⟨i, rest, hi, rfl⟩ | ⟨rest, rfl, hbad⟩ := format_cases format
    · exact ⟨[], [], fun i hi => absurd hi List.not_mem_nil, rfl, Or.inl rfl⟩
    · have hpos := i.render_pos
      rw [List.length_append] at hlen
      obtain ⟨items, tail, hvalid, rfl, hends⟩ := ih rest.length (by omega) rest rfl
      refine ⟨i :: items, tail, ?_, ?_, hends⟩
      · exact List.forall_mem_cons.mpr ⟨hi, hvalid⟩
      · rw [renderAll, renderAll, List.flatMap_cons, List.append_assoc]
    · exact ⟨[], _, fun i hi => absurd hi List.not_mem_nil, rfl, Or.inr ⟨rest, rfl, hbad⟩⟩

theorem krtlFormat_stops {upper : Bool} {c : CHAR} (h : ¬GoesOn limit out) :
    krtlFormat limit (c :: format) args out upper = (written out, out) := by
  have htest : limit ≠ -1 ∧ limit.sle (written out) = true := by
    rw [GoesOn, not_or, Bool.not_eq_false] at h
    exact h
  rw [krtlFormat.eq_def]
  simp only [if_pos htest]

theorem krtlFormat_extends (limit : INT) (format : List CHAR) (args : VaList) (out : List CHAR) :
    out <+: (krtlFormat limit format args out false).2 := by
  induction hlen : format.length using Nat.strong_induction_on generalizing format args out with
  | _ len ih =>
    by_cases hgo : GoesOn limit out
    · obtain rfl | ⟨i, rest, hi, rfl⟩ | ⟨rest, rfl, hbad⟩ := format_cases format
      · exact List.prefix_refl out
      · have hpos := i.render_pos
        rw [List.length_append] at hlen
        rw [krtlFormat_item hgo i hi]
        exact (List.prefix_append out _).trans (ih rest.length (by omega) rest _ _ rfl)
      · simp only [krtlFormat_bad hgo hbad, List.prefix_rfl]
    · cases format with
      | nil => exact List.prefix_refl out
      | cons c format =>
        simp only [krtlFormat_stops hgo, List.prefix_rfl]

section
variable (hlimit : limit.toNat < 2 ^ 31)
include hlimit

theorem toInt_limit : limit.toInt = limit.toNat :=
  BitVec.toInt_eq_toNat_of_lt (by omega)

theorem toInt_written (hlen : out.length ≤ limit.toNat) : (written out).toInt = out.length := by
  have hnat : (written out).toNat = out.length := by
    rw [written, BitVec.toNat_ofNat, Nat.mod_eq_of_lt (by omega)]
  rw [BitVec.toInt_eq_toNat_of_lt (by omega), hnat]

theorem goesOn_iff (hlen : out.length ≤ limit.toNat) :
    GoesOn limit out ↔ out.length < limit.toNat := by
  have hne : limit ≠ -1 := by
    rintro rfl
    exact absurd hlimit (by decide)
  rw [GoesOn, or_iff_right hne, BitVec.sle_eq_decide, decide_eq_false_iff_not,
    toInt_limit hlimit, toInt_written hlimit hlen]
  omega

structure Formatted (limit : INT) (text tail : List CHAR) (r : INT × List CHAR) : Prop where
  taken : r.2 = text.take limit.toNat
  result : r.1 = if tail = [] ∨ limit.toNat ≤ text.length then written r.2 else -1

theorem krtlFormat_full (hlen : out.length ≤ limit.toNat) (hgo : ¬GoesOn limit out)
    (hne : format ≠ []) (text tail : List CHAR) (args : VaList) :
    Formatted limit (out ++ text) tail (krtlFormat limit format args out false) := by
  have hreached : ¬out.length < limit.toNat := fun h => hgo ((goesOn_iff hlimit hlen).mpr h)
  have heq : out.length = limit.toNat := by omega
  obtain ⟨c, format, rfl⟩ := List.exists_cons_of_ne_nil hne
  rw [krtlFormat_stops hgo]
  refine ⟨?_, (if_pos (Or.inr ?_)).symm⟩
  · rw [← heq, List.take_left]
  · rw [List.length_append]
    omega

theorem krtlFormat_tail (hlen : out.length ≤ limit.toNat)
    (hends : tail = [] ∨ ∃ rest, tail = ch '%' :: rest ∧ BadSpecifier rest) (args : VaList) :
    Formatted limit out tail (krtlFormat limit tail args out false) := by
  have htake : out = out.take limit.toNat := (List.take_of_length_le hlen).symm
  obtain rfl | ⟨rest, rfl, hbad⟩ := hends
  · exact ⟨htake, (if_pos (Or.inl rfl)).symm⟩
  · by_cases hgo : GoesOn limit out
    · have hbelow := (goesOn_iff hlimit hlen).mp hgo
      rw [krtlFormat_bad hgo hbad]
      exact ⟨htake, (if_neg (by simp; omega)).symm⟩
    · have hfull := krtlFormat_full hlimit hlen hgo (List.cons_ne_nil (ch '%') rest) []
        (ch '%' :: rest) args
      rwa [List.append_nil] at hfull

/-- By induction on the items. A piece that crosses the limit is in the text to the end. -/
theorem krtlFormat_limit (hlen : out.length ≤ limit.toNat) (hvalid : ∀ i ∈ items, i.Valid)
    (hends : tail = [] ∨ ∃ rest, tail = ch '%' :: rest ∧ BadSpecifier rest) (args : VaList) :
    (Fits limit.toNat out.length (pieces tail items args) →
      Formatted limit (out ++ (pieces tail items args).flatten) tail
        (krtlFormat limit (renderAll items ++ tail) args out false)) ∧
    (¬Fits limit.toNat out.length (pieces tail items args) →
      limit.toNat < (krtlFormat limit (renderAll items ++ tail) args out false).2.length) := by
  induction items generalizing args out with
  | nil =>
    refine ⟨fun _ => ?_, fun h => absurd trivial h⟩
    rw [pieces, List.flatten_nil, List.append_nil]
    exact krtlFormat_tail hlimit hlen hends args
  | cons i items ih =>
    obtain ⟨hi, hrest⟩ := List.forall_mem_cons.mp hvalid
    by_cases hgo : GoesOn limit out
    · have hbelow := (goesOn_iff hlimit hlen).mp hgo
      have hstep := krtlFormat_item hgo i hi (renderAll items ++ tail) args
      have hrender : renderAll (i :: items) ++ tail = i.render ++ (renderAll items ++ tail) := by
        rw [renderAll, List.flatMap_cons, List.append_assoc]
        rfl
      rw [hrender, hstep, pieces, Fits]
      generalize i.written args ((renderAll items ++ tail).headD 0#8) = p
      by_cases hp : (out ++ p).length ≤ limit.toNat
      · have hih := ih hp hrest (i.argsAfter args)
        rw [List.length_append] at hp hih
        rw [List.flatten_cons, ← List.append_assoc]
        refine ⟨fun h => hih.1 (h hbelow).2, fun h => hih.2 fun hfits => h fun _ => ⟨hp, hfits⟩⟩
      · have hlong := (krtlFormat_extends limit (renderAll items ++ tail) (i.argsAfter args)
          (out ++ p)).length_le
        rw [List.length_append] at hp hlong
        exact ⟨fun h => absurd (h hbelow).1 hp, fun _ => by omega⟩
    · have hreached : ¬out.length < limit.toNat := fun h => hgo ((goesOn_iff hlimit hlen).mpr h)
      rw [pieces, Fits]
      refine ⟨fun _ => ?_, fun h => absurd (fun h => absurd h hreached) h⟩
      have hne : renderAll (i :: items) ++ tail ≠ [] := by
        have hpos := i.render_pos
        rw [renderAll, List.flatMap_cons, List.append_assoc]
        exact List.append_ne_nil_of_left_ne_nil (List.ne_nil_of_length_pos hpos) _
      exact krtlFormat_full hlimit hlen hgo hne _ tail args

end

theorem terminated_take {n : Nat} {text : List CHAR} :
    Terminated n old (text.take n) ↔ Terminated n old text := by
  refine exists_congr fun i => and_congr_right fun hi => ?_
  have hget : (text.take n)[i]? = text[i]? := List.getElem?_take_of_lt hi
  rw [bufferAfter, bufferAfter, List.getD_eq_getElem?_getD, hget, ← List.getD_eq_getElem?_getD]

theorem Formatted.kept_iff {format : CString} {text : List CHAR} (hlimit : 0 ≤ limit.toInt)
    (hsmall : limit.toNat < 2 ^ 31)
    (h : Formatted limit text tail (krtlFormatStringVariadic limit format args)) :
    LimitKept limit format args old ↔
      (tail = [] ∨ limit.toNat ≤ text.length → Terminated limit.toNat old text) := by
  obtain ⟨htaken, hresult⟩ := h
  have hwithin : (krtlFormatStringVariadic limit format args).2.length ≤ limit.toNat := by
    rw [htaken]
    exact List.length_take_le _ _
  by_cases hend : tail = [] ∨ limit.toNat ≤ text.length
  · rw [if_pos hend] at hresult
    have hlength := toInt_written hsmall hwithin
    rw [← hresult] at hlength
    rw [forall_prop_of_true hend, ← terminated_take, ← htaken]
    constructor
    · exact fun hkept => hkept.terminated (by omega)
    · refine fun hterminated => ⟨hwithin, ?_, fun _ => hterminated⟩
      rw [hlength, toInt_limit hsmall]
      omega
  · rw [if_neg hend] at hresult
    refine iff_of_true ⟨hwithin, ?_, fun hpos => ?_⟩ fun h => absurd h hend
    · rw [hresult]
      exact Int.le_trans (by decide) hlimit
    · rw [hresult] at hpos
      exact absurd hpos (by decide)

/-! ### Zero bytes -/

theorem krtlDigitChar_ne_zero {r : Nat} (hr : r < 16) (hexCase : Nat) :
    krtlDigitChar r hexCase ≠ 0#8 := by
  have hall : ∀ r < 16, ∀ a ∈ [ch 'A', ch 'a'], (if r < 10 then BitVec.ofNat 8 r + ch '0'
      else BitVec.ofNat 8 (r - 10) + a) ≠ 0#8 := by
    decide
  refine hall r hr _ ?_
  split <;> decide

theorem digitLoop_ne_zero {radix : Nat} (hpos : 0 < radix) (hradix : radix ≤ 16)
    (hexCase fuel value : Nat) : 0#8 ∉ digitLoop radix hexCase fuel value := by
  induction fuel generalizing value with
  | zero => exact List.not_mem_nil
  | succ fuel ih =>
    rw [digitLoop]
    split
    · exact List.not_mem_nil
    · have hdigit := Nat.mod_lt value hpos
      rw [List.mem_cons, not_or]
      exact ⟨(krtlDigitChar_ne_zero (by omega) hexCase).symm, ih _⟩

theorem unsigned_ne_zero {radix : Nat} (hpos : 0 < radix) (hradix : radix ≤ 16)
    (value hexCase : Nat) : 0#8 ∉ copyBuf (krtlUnsignedToString value radix hexCase) := by
  rw [copyBuf_unsigned, krtlUnsignedToString]
  split
  · decide
  · rw [krtlReverseString, List.mem_reverse]
    exact digitLoop_ne_zero hpos hradix hexCase 64 value

theorem signed_ne_zero (n : INT) :
    0#8 ∉ copyBuf (krtlSignedToString n.toInt KRTL_RADIX_DECIMAL 0) := by
  rw [copyBuf_signed, krtlSignedToString_natAbs (by decide) (by decide) (lowest_lt_toInt n)]
  split
  · decide
  · rw [krtlReverseString, List.mem_reverse, List.mem_append, not_or]
    refine ⟨digitLoop_ne_zero (by decide) (by decide) 0 64 _, ?_⟩
    split <;> decide

/-- The escape at the end of the format string, the character 0, a null pointer with the
terminator of its "(NULL)", and a string whose size reaches its terminator. -/
def WritesNul (i : Item) (args : VaList) (next : CHAR) : Prop :=
  match i with
  | .percent => next = 0
  | .char => args.int.setWidth 8 = 0#8
  | .string => (args 0).word ≠ 0 →
    (args 0).string.text.length < wrap32 (krtlStringSize (args 0).string)
  | _ => False

theorem CString.zero_mem_copy (s : CString) (n : Nat) : 0#8 ∈ s.copy n ↔ s.text.length < n := by
  rw [CString.copy, List.take_append, List.mem_append]
  constructor
  · rintro (htext | hbehind)
    · exact absurd (List.mem_of_mem_take htext) s.text_ne
    · have hpos := List.length_pos_of_mem hbehind
      rw [List.length_take] at hpos
      omega
  · intro hlt
    obtain ⟨k, hk⟩ := Nat.exists_eq_add_of_lt (Nat.sub_pos_of_lt hlt)
    refine Or.inr ?_
    rw [hk, Nat.zero_add, List.take_succ_cons]
    exact List.mem_cons_self

theorem zero_mem_written {i : Item} (hi : ∀ c, i = .literal c → c ≠ 0) (args : VaList)
    (next : CHAR) : 0#8 ∈ i.written args next ↔ WritesNul i args next := by
  -- neither the digits nor the words that are written have a zero byte
  cases i with
  | literal c => exact iff_of_false (fun h => hi c rfl (List.mem_singleton.mp h).symm) id
  | percent => exact List.mem_singleton.trans eq_comm
  | char => exact List.mem_singleton.trans eq_comm
  | bool =>
    refine iff_of_false ?_ id
    rw [Item.written]
    split <;> decide
  | boolUpper =>
    refine iff_of_false ?_ id
    rw [Item.written]
    split <;> decide
  | string =>
    rw [Item.written, WritesNul]
    by_cases hnull : (args 0).word = 0
    · rw [if_neg (not_not_intro hnull)]
      exact iff_of_true (List.mem_append_right _ List.mem_cons_self) fun h => absurd hnull h
    · rw [if_pos hnull, CString.zero_mem_copy, forall_prop_of_true hnull]
  | signed => exact iff_of_false (signed_ne_zero _) id
  | integer => exact iff_of_false (signed_ne_zero _) id
  | pointer =>
    refine iff_of_false (fun h => ?_) id
    rcases List.mem_append.mp h with h | h
    · exact absurd h (by decide)
    · exact unsigned_ne_zero (by decide) (by decide) _ _ h
  | _ => exact iff_of_false (unsigned_ne_zero (by decide) (by decide) _ _) id

/-- From a length on, an item that begins below the limit is written with a zero byte. -/
def NulWritten (limit : Nat) (tail : List CHAR) : Nat → List Item → VaList → Prop
  | _, [], _ => False
  | len, i :: items, args =>
    let next := (renderAll items ++ tail).headD 0#8
    len < limit ∧ (WritesNul i args next ∨
      NulWritten limit tail (len + (i.written args next).length) items (i.argsAfter args))

theorem nulWritten_iff {limit len : Nat} (hitems : ∀ c, Item.literal c ∈ items → c ≠ 0)
    (hfits : Fits limit len (pieces tail items args)) :
    NulWritten limit tail len items args ↔
      0#8 ∈ (pieces tail items args).flatten.take (limit - len) := by
  induction items generalizing args len with
  | nil =>
    rw [pieces, List.flatten_nil, List.take_nil]
    exact iff_of_false id List.not_mem_nil
  | cons i items ih =>
    have hnul := zero_mem_written (i := i) (fun c h => hitems c (h ▸ List.mem_cons_self)) args
      ((renderAll items ++ tail).headD 0#8)
    have hrest : ∀ c, Item.literal c ∈ items → c ≠ 0 := fun c hc =>
      hitems c (List.mem_cons_of_mem i hc)
    rw [pieces, Fits] at hfits
    rw [NulWritten, pieces, List.flatten_cons, ← hnul]
    by_cases hlen : len < limit
    · obtain ⟨hp, hfits⟩ := hfits hlen
      have htail := ih hrest hfits
      rw [List.take_append, List.take_of_length_le (by omega), List.mem_append, Nat.sub_sub, htail]
      exact and_iff_right hlen
    · rw [Nat.sub_eq_zero_of_le (by omega), List.take_zero]
      exact iff_of_false (fun h => hlen h.1) List.not_mem_nil

theorem terminated_iff {limit : Nat} {text : List CHAR} : Terminated limit old text ↔
    0#8 ∈ text.take limit ∨ ∃ i, text.length ≤ i ∧ i < limit ∧ old i = 0 := by
  constructor
  · rintro ⟨i, hi, hzero⟩
    rw [bufferAfter] at hzero
    by_cases hin : i < text.length
    · rw [List.getD_eq_getElem _ _ hin] at hzero
      refine Or.inl (List.mem_take_iff_getElem.mpr ⟨i, by omega, hzero⟩)
    · rw [List.getD_eq_default _ _ (by omega)] at hzero
      exact Or.inr ⟨i, by omega, hi, hzero⟩
  · rintro (hmem | ⟨i, hle, hi, hzero⟩)
    · obtain ⟨i, hi, hzero⟩ := List.mem_take_iff_getElem.mp hmem
      refine ⟨i, by omega, ?_⟩
      rw [bufferAfter, List.getD_eq_getElem _ _ (by omega)]
      exact hzero
    · refine ⟨i, hi, ?_⟩
      rw [bufferAfter, List.getD_eq_default _ _ hle]
      exact hzero

theorem Split.literal_ne {format : CString} (h : Split format.text items tail) (c : CHAR)
    (hc : Item.literal c ∈ items) : c ≠ 0 := by
  rintro rfl
  refine format.text_ne ?_
  rw [h.eq]
  exact List.mem_append_left _ (List.mem_flatMap.mpr ⟨_, hc, List.mem_cons_self⟩)

theorem Split.terminated_iff {format : CString} {limit : Nat}
    (h : Split format.text items tail) (hfits : Fits limit 0 (pieces tail items args)) :
    Terminated limit old (pieces tail items args).flatten ↔ NulWritten limit tail 0 items args ∨
      ∃ i, (pieces tail items args).flatten.length ≤ i ∧ i < limit ∧ old i = 0 := by
  rw [Krnlstring.terminated_iff, nulWritten_iff h.literal_ne hfits, Nat.sub_zero]

/-- The limit is kept exactly if no piece of the text crosses it and, unless the format string is
malformed before it is reached, an item below it writes a zero byte or there is one behind the
text. -/
theorem limitKept_iff (limit : INT) (format : CString) (args : VaList) (old : Nat → CHAR)
    (hlimit : 0 ≤ limit.toInt) :
    LimitKept limit format args old ↔ ∃ items tail, Split format.text items tail ∧
      Fits limit.toNat 0 (pieces tail items args) ∧
      (tail = [] ∨ limit.toNat ≤ (pieces tail items args).flatten.length →
        NulWritten limit.toNat tail 0 items args ∨
          ∃ i, (pieces tail items args).flatten.length ≤ i ∧ i < limit.toNat ∧ old i = 0) := by
  have hsmall : limit.toNat < 2 ^ 31 := by
    have := BitVec.toInt_pos_iff.mp hlimit
    omega
  have hrun : ∀ items tail, Split format.text items tail →
      (Fits limit.toNat 0 (pieces tail items args) →
        Formatted limit (pieces tail items args).flatten tail
          (krtlFormatStringVariadic limit format args)) ∧
      (¬Fits limit.toNat 0 (pieces tail items args) →
        limit.toNat < (krtlFormatStringVariadic limit format args).2.length) := by
    intro items tail hsplit
    have hnone : ([] : List CHAR).length ≤ limit.toNat := Nat.zero_le _
    rw [krtlFormatStringVariadic, hsplit.eq]
    exact krtlFormat_limit hsmall hnone hsplit.valid hsplit.ends args
  constructor
  · intro hkept
    obtain ⟨items, tail, hsplit⟩ := exists_split format.text
    obtain ⟨hgood, hbad⟩ := hrun items tail hsplit
    have hfits : Fits limit.toNat 0 (pieces tail items args) := by
      by_contra hcross
      exact absurd hkept.within (Nat.not_le.mpr (hbad hcross))
    refine ⟨items, tail, hsplit, hfits, ?_⟩
    rw [← hsplit.terminated_iff hfits]
    exact ((hgood hfits).kept_iff hlimit hsmall).mp hkept
  · rintro ⟨items, tail, hsplit, hfits, hend⟩
    have hgood := (hrun items tail hsplit).1 hfits
    rw [← hsplit.terminated_iff hfits] at hend
    exact (hgood.kept_iff hlimit hsmall).mpr hend

/-- `%d` into a buffer of 16 zeroed bytes. -/
theorem limitKept_iff_number : LimitKept 16 ⟨[ch '%', ch 'd'], [], by decide, List.not_mem_nil⟩
    (numberArgs 50#64) fun _ => 0 := by
  refine (limitKept_iff 16 ⟨[ch '%', ch 'd'], [], by decide, List.not_mem_nil⟩ (numberArgs 50#64)
    (fun _ => 0) (by decide)).mpr ⟨[.signed], [], ⟨?_, rfl, Or.inl rfl⟩, ?_, fun _ => Or.inr ?_⟩
  · exact fun i hi => by rw [List.mem_singleton.mp hi]; trivial
  · exact fun _ => ⟨by decide, trivial⟩
  · exact ⟨2, by decide, by decide, rfl⟩

/-- A limit of one byte and a number of two digits. -/
theorem number_across_limit : ¬∀ (limit : INT) (format : CString) (args : VaList)
    (old : Nat → CHAR), 0 ≤ limit.toInt → LimitKept limit format args old := by
  intro hall
  have hkept := hall 1 ⟨[ch '%', ch 'd'], [], by decide, List.not_mem_nil⟩ (numberArgs 50#64)
    (fun _ => 0) (by decide)
  exact absurd hkept.within (by decide)

end Ych.Krnlstring
