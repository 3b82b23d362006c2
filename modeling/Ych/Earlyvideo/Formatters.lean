import Ych.Earlyvideo.FormatItems

/-! The two formatters against each other: what the one writes to a buffer and the other prints,
item by item. -/
namespace Ych.Dwtp
open Words Krnlstring

def renderAll (items : List Item) : List CHAR := items.flatMap Item.render

namespace Item

/-- What the buffer formatter writes for the item, with the character that follows it. -/
def written (i : Item) (args : VaList) (next : CHAR) : List CHAR :=
  match i with
  | literal c => [c]
  | percent => [next]
  | char => [args.int.setWidth 8]
  | bool => chars (if args.int ≠ 0 then "true" else "false")
  | boolUpper => chars (if args.int ≠ 0 then "TRUE" else "FALSE")
  | string =>
    if (args 0).word ≠ 0 then (args 0).string.copy (wrap32 (krtlStringSize (args 0).string))
    else chars "(NULL)" ++ [0#8]
  | signed | integer => copyBuf (krtlSignedToString args.int.toInt KRTL_RADIX_DECIMAL 0)
  | unsigned => copyBuf (krtlUnsignedToString args.int.toNat KRTL_RADIX_DECIMAL 0)
  | octal => copyBuf (krtlUnsignedToString args.int.toNat KRTL_RADIX_OCTAL 0)
  | hexUpper =>
    copyBuf (krtlUnsignedToString args.int.toNat KRTL_RADIX_HEXADECIMAL KRTL_HEX_UPPERCASE)
  | hexLower =>
    copyBuf (krtlUnsignedToString args.int.toNat KRTL_RADIX_HEXADECIMAL KRTL_HEX_LOWERCASE)
  | pointer => [ch '0', ch 'x'] ++
    copyBuf (krtlUnsignedToString args.quadword KRTL_RADIX_HEXADECIMAL KRTL_HEX_UPPERCASE)
  | unsigned64 => copyBuf (krtlUnsignedToString args.quadword KRTL_RADIX_DECIMAL 0)
  | hexUpper64 =>
    copyBuf (krtlUnsignedToString args.quadword KRTL_RADIX_HEXADECIMAL KRTL_HEX_UPPERCASE)
  | hexLower64 =>
    copyBuf (krtlUnsignedToString args.quadword KRTL_RADIX_HEXADECIMAL KRTL_HEX_LOWERCASE)

def Common : Item → Prop
  | boolUpper | hexLower | hexLower64 => False
  | _ => True

/-- An escape is followed by a percent sign, and a string argument is one whose size
`KrtlStringSize` gives. -/
def AgreesAt (i : Item) (args : VaList) (next : CHAR) : Prop :=
  match i with
  | percent => next = ch '%'
  | string => (args 0).word ≠ 0 ∧
    wrap32 (krtlStringSize (args 0).string) = (args 0).string.text.length
  | _ => True

end Item

def GoesOn (limit : INT) (out : List CHAR) : Prop := limit = -1 ∨ limit.sle (written out) = false

theorem goesOn_unlimited {out : List CHAR} : GoesOn (-1) out := Or.inl rfl

theorem GoesOn.test {limit : INT} {out : List CHAR} (h : GoesOn limit out) :
    (limit ≠ -1 ∧ limit.sle (written out) = true) = False := by
  rw [eq_iff_iff, iff_false]
  rintro ⟨hne, hreached⟩
  cases h with
  | inl heq => exact hne heq
  | inr hoff => exact Bool.noConfusion (hoff.symm.trans hreached)

theorem krtlFormat_item {limit : INT} {out : List CHAR} (hgo : GoesOn limit out) (i : Item)
    (hi : i.Valid) (rest : List CHAR) (args : VaList) :
    krtlFormat limit (i.render ++ rest) args out false =
      krtlFormat limit rest (i.argsAfter args) (out ++ i.written args (rest.headD 0#8)) false := by
  cases i with
  | literal c =>
    have hc : c ≠ ch '%' := hi
    rw [Item.render, List.singleton_append, krtlFormat.eq_def]
    simp only [hgo.test, if_false]
    simp [hc, Item.written, Item.argsAfter, Item.takesArgument]
  | percent =>
    rw [Item.render, List.cons_append, List.singleton_append, krtlFormat.eq_def]
    simp only [hgo.test, if_false]
    simp [Item.written, Item.argsAfter, Item.takesArgument]
  | _ =>
    rw [Item.render, List.cons_append, List.cons_append, krtlFormat.eq_def]
    simp only [hgo.test, if_false]
    simp [Item.written, Item.argsAfter, Item.takesArgument, ch]

theorem krtlFormat_bad {limit : INT} {out rest : List CHAR} (hgo : GoesOn limit out)
    (h : BadSpecifier rest) (args : VaList) :
    krtlFormat limit (ch '%' :: rest) args out false = (-1, out) := by
  rw [krtlFormat.eq_def]
  simp only [hgo.test, if_false]
  obtain rfl | rfl | ⟨e, tail, rfl, hu, hX, hx⟩ | ⟨d, tail, rfl, hd, hspec⟩ := h.cases
  · simp
  · simp [ch]
  · simp [hu, hX, hx]
    simp [ch]
  · simp only [specifiers, List.mem_cons, List.not_mem_nil, or_false, not_or] at hspec
    simp [hspec, hd]

/-! ### Numbers -/

theorem digitLoop_case {radix : Nat} (hpos : 0 < radix) (hle : radix ≤ 10) (a b fuel value : Nat) :
    digitLoop radix a fuel value = digitLoop radix b fuel value := by
  induction fuel generalizing value with
  | zero => rfl
  | succ fuel ih =>
    have hdigit : value % radix < KRTL_RADIX_DECIMAL := (Nat.mod_lt _ hpos).trans_le hle
    rw [digitLoop, digitLoop, ih, krtlDigitChar, krtlDigitChar, if_pos hdigit, if_pos hdigit]

theorem krtlUnsignedToString_case {radix : Nat} (hpos : 0 < radix) (hle : radix ≤ 10)
    (a b value : Nat) :
    krtlUnsignedToString value radix a = krtlUnsignedToString value radix b := by
  rw [krtlUnsignedToString, krtlUnsignedToString, digitLoop_case hpos hle a b]

section
variable {radix : Nat} (hpos : 0 < radix) (hradix : radix < 2 ^ 64)
include hpos hradix

theorem signedDigitLoop_natCast (hexCase fuel value : Nat) :
    signedDigitLoop radix hexCase fuel value = digitLoop radix hexCase fuel value := by
  induction fuel generalizing value with
  | zero => rfl
  | succ fuel ih =>
    have hdigit : toSize ((value : Int).tmod radix) = value % radix :=
      toSize_natCast ((Nat.mod_lt value hpos).trans hradix)
    have hrest : (value : Int).tdiv radix = (value / radix : Nat) := rfl
    rw [signedDigitLoop, digitLoop, hdigit, hrest, ih]
    simp only [Int.natCast_eq_zero]

/-- Above the lowest value, the digits are those of the absolute value. -/
theorem krtlSignedToString_natAbs {value : Int} (hlow : -2 ^ 63 < value) (hexCase : Nat) :
    krtlSignedToString value radix hexCase =
      if value = 0 then [ch '0']
      else krtlReverseString (digitLoop radix hexCase 64 value.natAbs ++
        if value < 0 then [ch '-'] else []) := by
  have hvalue : (if value < 0 then negate value else value) = value.natAbs := by
    split
    · have hmod : negate value = -value := Int.bmod_eq_of_le_mul_two (by omega) (by omega)
      omega
    · omega
  rw [krtlSignedToString, hvalue, signedDigitLoop_natCast hpos hradix]

theorem krtlSignedToString_natCast (value hexCase : Nat) :
    krtlSignedToString value radix hexCase = krtlUnsignedToString value radix hexCase := by
  have hneg : ¬(value : Int) < 0 := by omega
  rw [krtlSignedToString_natAbs hpos hradix (by omega), krtlUnsignedToString, if_neg hneg,
    List.append_nil, Int.natAbs_natCast]
  simp only [Int.natCast_eq_zero]

end

theorem krtlSignedToString_case {radix : Nat} (hpos : 0 < radix) (hle : radix ≤ 10)
    (a b : Nat) {value : Int} (hlow : -2 ^ 63 < value) :
    krtlSignedToString value radix a = krtlSignedToString value radix b := by
  have hradix : radix < 2 ^ 64 := by omega
  rw [krtlSignedToString_natAbs hpos hradix hlow, krtlSignedToString_natAbs hpos hradix hlow,
    digitLoop_case hpos hle a b]

theorem lowest_lt_toInt (n : INT) : -2 ^ 63 < n.toInt := by
  have := n.le_toInt
  omega

theorem digitLoop_length (radix hexCase fuel value : Nat) :
    (digitLoop radix hexCase fuel value).length ≤ fuel := by
  induction fuel generalizing value with
  | zero => exact Nat.le_refl 0
  | succ fuel ih =>
    rw [digitLoop]
    split
    · exact Nat.zero_le _
    · exact Nat.succ_le_succ (ih _)

theorem signedDigitLoop_length (radix hexCase fuel : Nat) (value : Int) :
    (signedDigitLoop radix hexCase fuel value).length ≤ fuel := by
  induction fuel generalizing value with
  | zero => exact Nat.le_refl 0
  | succ fuel ih =>
    rw [signedDigitLoop]
    split
    · exact Nat.zero_le _
    · exact Nat.succ_le_succ (ih _)

theorem copyBuf_eq {buf : List CHAR} (h : buf.length ≤ 65) : copyBuf buf = buf := by
  rw [copyBuf, wrap32_of_lt (by omega), List.take_length]

theorem copyBuf_unsigned (value radix hexCase : Nat) :
    copyBuf (krtlUnsignedToString value radix hexCase) =
      krtlUnsignedToString value radix hexCase := by
  apply copyBuf_eq
  rw [krtlUnsignedToString]
  split
  · decide
  · rw [krtlReverseString, List.length_reverse]
    exact (digitLoop_length _ _ _ _).trans (by decide)

theorem copyBuf_signed (value : Int) (radix hexCase : Nat) :
    copyBuf (krtlSignedToString value radix hexCase) = krtlSignedToString value radix hexCase := by
  apply copyBuf_eq
  rw [krtlSignedToString]
  split
  · decide
  · rw [krtlReverseString, List.length_reverse, List.length_append]
    generalize (if value < 0 then negate value else value) = digits
    have hdigits := signedDigitLoop_length radix hexCase 64 digits
    split
    · exact Nat.succ_le_succ hdigits
    · exact Nat.le_succ_of_le hdigits

/-! ### Items -/

variable {i : Item} {args : VaList} {next : CHAR} {text : List CHAR}

/-- Strings apart, and the escape, the two formatters agree on every item. -/
theorem written_eq (hi : i.Common) (h : i.AgreesAt args next) :
    i.printed args = some (i.written args next) := by
  cases i with
  | boolUpper => exact hi.elim
  | hexLower => exact hi.elim
  | hexLower64 => exact hi.elim
  | percent => exact congrArg (fun c => some [c]) (h : next = ch '%').symm
  | string =>
    obtain ⟨hnull, hsize⟩ := h
    rw [Item.printed, Item.written, if_neg hnull, if_pos hnull, hsize, CString.copy,
      List.take_left']
    rfl
  | signed =>
    rw [Item.printed, Item.written, copyBuf_signed]
    rw [krtlSignedToString_case (by decide) (by decide) 0 _ (lowest_lt_toInt _)]
  | integer =>
    rw [Item.printed, Item.written, copyBuf_signed]
    rw [krtlSignedToString_case (by decide) (by decide) 0 _ (lowest_lt_toInt _)]
  | unsigned =>
    rw [Item.printed, Item.written, copyBuf_unsigned]
    rw [krtlUnsignedToString_case (by decide) (by decide) 0]
  | octal =>
    rw [Item.printed, Item.written, copyBuf_unsigned]
    rw [krtlSignedToString_natCast (by decide) (by decide)]
    rw [krtlUnsignedToString_case (by decide) (by decide) 0]
  | unsigned64 =>
    rw [Item.printed, Item.written, copyBuf_unsigned]
    rw [krtlUnsignedToString_case (by decide) (by decide) 0]
  | hexUpper => rw [Item.printed, Item.written, copyBuf_unsigned]
  | hexUpper64 => rw [Item.printed, Item.written, copyBuf_unsigned]
  | pointer =>
    rw [Item.printed, Item.written, copyBuf_unsigned]
    rfl
  | literal c => rfl
  | char => rfl
  | bool => rfl

theorem krtlStringSize_le (s : CString) :
    krtlStringSize s ≤ s.text.length + (1 + s.behind.length) := by
  rw [krtlStringSize]
  split
  · exact Nat.le_add_left _ _
  · rename_i heq
    rw [heq, List.length_cons]
    omega

theorem copy_length (s : CString) :
    (s.copy (wrap32 (krtlStringSize s))).length = wrap32 (krtlStringSize s) := by
  have hle := krtlStringSize_le s
  have hwrap : wrap32 (krtlStringSize s) ≤ krtlStringSize s := Nat.mod_le _ _
  rw [CString.copy, List.length_take, List.length_append, List.length_cons]
  omega

theorem written_length (hi : i.Common) (hprinted : i.printed args = some text)
    (hshort : text.length < 2 ^ 31) : text.length ≤ (i.written args next).length := by
  by_cases hagree : i.AgreesAt args next
  · rw [written_eq hi hagree, Option.some.injEq] at hprinted
    rw [hprinted]
  · cases i with
    | percent => exact Option.some.inj hprinted ▸ Nat.le_refl 1
    | string =>
      rw [Item.written]
      rw [Item.printed, Option.some.injEq] at hprinted
      by_cases hnull : (args 0).word = 0
      · rw [if_pos hnull] at hprinted
        rw [if_neg (not_not_intro hnull), ← hprinted]
        decide
      · rw [if_neg hnull] at hprinted
        rw [if_pos hnull, copy_length]
        cases htext : (args 0).string.text with
        | nil =>
          rw [← hprinted, htext]
          exact Nat.zero_le _
        | cons c l =>
          have hsize : krtlStringSize (args 0).string = text.length := by
            rw [krtlStringSize, ← hprinted, htext]
            exact Nat.add_comm _ _
          rw [hsize, wrap32_of_lt (by omega)]
    | _ => exact absurd trivial hagree

theorem agrees_of_written (hprinted : i.printed args = some text)
    (heq : i.written args next = text) : i.AgreesAt args next := by
  cases i with
  | percent =>
    rw [← Option.some.inj hprinted] at heq
    exact List.head_eq_of_cons_eq heq
  | string =>
    rw [Item.printed, Option.some.injEq] at hprinted
    have hlen := congrArg List.length heq
    rw [Item.written, ← hprinted] at hlen
    by_cases hnull : (args 0).word = 0
    · rw [if_neg (not_not_intro hnull), if_pos hnull] at hlen
      exact absurd hlen (by decide)
    · rw [if_pos hnull, if_neg hnull, copy_length] at hlen
      exact ⟨hnull, hlen⟩
  | _ => trivial

/-! ### Format strings -/

def writtenText : List Item → VaList → List CHAR
  | [], _ => []
  | i :: items, args =>
    i.written args ((renderAll items).headD 0#8) ++ writtenText items (i.argsAfter args)

def printedText : List Item → VaList → List CHAR
  | [], _ => []
  | i :: items, args => (i.printed args).getD [] ++ printedText items (i.argsAfter args)

/-- Every escape and every string argument is one that the formatters treat alike. -/
def Agree : List Item → VaList → Prop
  | [], _ => True
  | i :: items, args =>
    i.AgreesAt args ((renderAll items).headD 0#8) ∧ Agree items (i.argsAfter args)

def Malformed (format : List CHAR) : Prop :=
  ¬∃ items : List Item, (∀ i ∈ items, i.Valid) ∧ format = renderAll items

variable {items : List Item} {out : List CHAR} {n : INT}

theorem Item.Common.printed_some (hi : i.Common) (args : VaList) :
    ∃ text, i.printed args = some text := by
  cases i with
  | boolUpper => exact hi.elim
  | _ => exact ⟨_, rfl⟩

theorem krtlFormat_items (hitems : ∀ i ∈ items, i.Valid) (args : VaList) (out : List CHAR) :
    krtlFormat (-1) (renderAll items) args out false =
      (written (out ++ writtenText items args), out ++ writtenText items args) := by
  induction items generalizing args out with
  | nil =>
    rw [writtenText, List.append_nil]
    rfl
  | cons i items ih =>
    have hrest := ih (fun j hj => hitems j (List.mem_cons_of_mem i hj)) (i.argsAfter args)
    rw [renderAll, List.flatMap_cons,
      krtlFormat_item goesOn_unlimited i (hitems i List.mem_cons_self)]
    exact (hrest _).trans (by rw [writtenText, List.append_assoc]; rfl)

theorem formats_items (hitems : ∀ i ∈ items, i.Valid ∧ i.Common) (args : VaList) (n : INT) :
    Formats (renderAll items) args n (n + BitVec.ofNat 32 (printedText items args).length)
      (printedText items args) := by
  induction items generalizing args n with
  | nil =>
    constructor
    intro m _ _ σ out s
    simp [renderAll, outFormat, printedText]
  | cons i items ih =>
    obtain ⟨hvalid, hcommon⟩ := hitems i List.mem_cons_self
    obtain ⟨text, htext⟩ := hcommon.printed_some args
    have hrest := ih (fun j hj => hitems j (List.mem_cons_of_mem i hj)) (i.argsAfter args)
      (n + BitVec.ofNat 32 text.length)
    constructor
    intro m _ _ σ out s
    rw [renderAll, List.flatMap_cons, outFormat_item out i hvalid, htext, printedText, htext,
      Option.getD_some, List.foldlM_append, bind_assoc, List.length_append, BitVec.ofNat_add,
      ← BitVec.add_assoc]
    exact bind_congr fun s => hrest.run out s

theorem writtenText_eq (hitems : ∀ i ∈ items, i.Valid ∧ i.Common) (h : Agree items args) :
    writtenText items args = printedText items args := by
  induction items generalizing args with
  | nil => rfl
  | cons i items ih =>
    obtain ⟨hfirst, hrest⟩ := h
    rw [writtenText, printedText, written_eq (hitems i List.mem_cons_self).2 hfirst,
      Option.getD_some, ih (fun j hj => hitems j (List.mem_cons_of_mem i hj)) hrest]

theorem writtenText_length (hitems : ∀ i ∈ items, i.Valid ∧ i.Common)
    (hshort : (printedText items args).length < 2 ^ 31) :
    (printedText items args).length ≤ (writtenText items args).length := by
  induction items generalizing args with
  | nil => exact Nat.le_refl 0
  | cons i items ih =>
    have hcommon := (hitems i List.mem_cons_self).2
    obtain ⟨text, htext⟩ := hcommon.printed_some args
    rw [printedText, htext, Option.getD_some, List.length_append] at hshort ⊢
    have hfirst : text.length ≤ (i.written args ((renderAll items).headD 0#8)).length :=
      written_length hcommon htext (by omega)
    have htail : (printedText items (i.argsAfter args)).length < 2 ^ 31 := by omega
    have hrest := ih (fun j hj => hitems j (List.mem_cons_of_mem i hj)) htail
    rw [writtenText, List.length_append]
    exact Nat.add_le_add hfirst hrest

theorem agree_of_eq (hitems : ∀ i ∈ items, i.Valid ∧ i.Common)
    (hshort : (printedText items args).length < 2 ^ 31)
    (heq : writtenText items args = printedText items args) : Agree items args := by
  induction items generalizing args with
  | nil => trivial
  | cons i items ih =>
    have hcommon := (hitems i List.mem_cons_self).2
    have htail := fun j hj => hitems j (List.mem_cons_of_mem i hj)
    obtain ⟨text, htext⟩ := hcommon.printed_some args
    rw [printedText, htext, Option.getD_some] at hshort heq
    rw [List.length_append] at hshort
    rw [writtenText] at heq
    have hlen := congrArg List.length heq
    rw [List.length_append, List.length_append] at hlen
    have hfirst : text.length ≤ (i.written args ((renderAll items).headD 0#8)).length :=
      written_length hcommon htext (by omega)
    have hrest : (printedText items (i.argsAfter args)).length ≤
        (writtenText items (i.argsAfter args)).length := writtenText_length htail (by omega)
    obtain ⟨hi, hitems'⟩ := List.append_inj heq (by omega)
    exact ⟨agrees_of_written htext hi, ih htail (by omega) hitems'⟩

theorem Malformed.cases {format : List CHAR} (h : Malformed format) :
    (∃ i rest, Item.Valid i ∧ format = i.render ++ rest ∧ Malformed rest) ∨
      ∃ rest, format = ch '%' :: rest ∧ BadSpecifier rest := by
  obtain rfl | ⟨i, rest, hi, rfl⟩ | hbad := format_cases format
  · exact absurd ⟨[], fun i hi => absurd hi List.not_mem_nil, rfl⟩ h
  · refine Or.inl ⟨i, rest, hi, rfl, ?_⟩
    rintro ⟨items, hitems, rfl⟩
    refine h ⟨i :: items, fun j hj => ?_, rfl⟩
    cases List.mem_cons.mp hj with
    | inl heq => exact heq ▸ hi
    | inr hj => exact hitems j hj
  · exact Or.inr hbad

theorem krtlFormat_malformed {format : List CHAR} (h : Malformed format) (args : VaList)
    (out : List CHAR) : (krtlFormat (-1) format args out false).1 = -1 := by
  induction hlen : format.length using Nat.strong_induction_on generalizing format args out with
  | _ len ih =>
    obtain ⟨i, rest, hi, rfl, hrest⟩ | ⟨rest, rfl, hbad⟩ := h.cases
    · have hpos := i.render_pos
      rw [List.length_append] at hlen
      rw [krtlFormat_item goesOn_unlimited i hi]
      exact ih rest.length (by omega) hrest _ _ rfl
    · rw [krtlFormat_bad goesOn_unlimited hbad]

theorem formats_malformed {format : List CHAR} (h : Malformed format) (args : VaList) (n : INT) :
    ∃ text, Formats format args n (-1) text := by
  induction hlen : format.length using Nat.strong_induction_on generalizing format args n with
  | _ len ih =>
    obtain ⟨i, rest, hi, rfl, hrest⟩ | ⟨rest, rfl, hbad⟩ := h.cases
    · have hpos := i.render_pos
      rw [List.length_append] at hlen
      cases hprinted : i.printed args with
      | none =>
        refine ⟨[], ⟨fun out s => ?_⟩⟩
        rw [outFormat_item out i hi, hprinted]
        simp
      | some text =>
        obtain ⟨tail, htail⟩ := ih rest.length (by omega) hrest (i.argsAfter args)
          (n + BitVec.ofNat 32 text.length) rfl
        refine ⟨text ++ tail, ⟨fun out s => ?_⟩⟩
        rw [outFormat_item out i hi, hprinted, List.foldlM_append, bind_assoc]
        exact bind_congr fun s => htail.run out s
    · exact ⟨[], ⟨fun out s => by rw [outFormat_bad out hbad]; simp⟩⟩

variable {format : CString}

theorem krtlFormatStringVariadic_items (hitems : ∀ i ∈ items, i.Valid)
    (hformat : format.text = renderAll items) (args : VaList) :
    krtlFormatStringVariadic (-1) format args =
      (written (writtenText items args), writtenText items args) := by
  rw [krtlFormatStringVariadic, hformat, krtlFormat_items hitems args [], List.nil_append]

theorem formattedText_items (hitems : ∀ i ∈ items, i.Valid ∧ i.Common)
    (hformat : format.text = renderAll items) (args : VaList) :
    formattedText format args =
      (written (printedText items args), printedText items args) := by
  have hformats := formats_items hitems args 0
  rw [← hformat] at hformats
  rw [hformats.eq]
  change (0#32 + _, _) = _
  rw [BitVec.zero_add]
  rfl

/-- The formatters agree on a format string of common items if its escapes and string arguments
do, and, where the count fits the result, only then. Both reject a malformed format string. -/
theorem formatters_agree (format : CString) (args : VaList) :
    (∀ items, (∀ i ∈ items, Item.Valid i ∧ Item.Common i) → format.text = renderAll items →
      (Agree items args → krtlFormatStringVariadic (-1) format args = formattedText format args) ∧
      ((formattedText format args).2.length < 2 ^ 31 →
        krtlFormatStringVariadic (-1) format args = formattedText format args →
          Agree items args)) ∧
    (Malformed format.text →
      (krtlFormatStringVariadic (-1) format args).1 = -1 ∧ (formattedText format args).1 = -1) := by
  constructor
  · intro items hitems hformat
    rw [krtlFormatStringVariadic_items (fun i hi => (hitems i hi).1) hformat,
      formattedText_items hitems hformat]
    refine ⟨fun hagree => by rw [writtenText_eq hitems hagree], fun hshort hsame => ?_⟩
    exact agree_of_eq hitems hshort (congrArg Prod.snd hsame)
  · intro hbad
    obtain ⟨text, hformats⟩ := formats_malformed hbad args 0
    exact ⟨krtlFormat_malformed hbad args [], by rw [hformats.eq]⟩

def emptyString : CString := ⟨[], [], List.not_mem_nil, List.not_mem_nil⟩

def numberArgs (n : BitVec 64) : VaList := fun _ => ⟨n, emptyString⟩

def percentFormat : CString := ⟨renderAll [.signed, .percent], [], by decide, List.not_mem_nil⟩

theorem formatters_agree_percentFormat :
    (Agree [.signed, .percent] (numberArgs 50#64) →
      krtlFormatStringVariadic (-1) percentFormat (numberArgs 50#64) =
        formattedText percentFormat (numberArgs 50#64)) ∧
    ((formattedText percentFormat (numberArgs 50#64)).2.length < 2 ^ 31 →
      krtlFormatStringVariadic (-1) percentFormat (numberArgs 50#64) =
        formattedText percentFormat (numberArgs 50#64) →
      Agree [.signed, .percent] (numberArgs 50#64)) :=
  (formatters_agree percentFormat (numberArgs 50#64)).1 [.signed, .percent]
    (fun i hi => by
      simp only [List.mem_cons, List.not_mem_nil, or_false] at hi
      obtain rfl | rfl := hi <;> exact ⟨trivial, trivial⟩) rfl

/-- The one writes a terminator where the other prints the percent sign. -/
theorem percentFormat_differs :
    ¬ ∀ (format : CString) (args : VaList) (items : List Item),
      (∀ i ∈ items, Item.Valid i ∧ Item.Common i) → format.text = renderAll items →
      krtlFormatStringVariadic (-1) format args = formattedText format args := by
  intro hall
  have hitems : ∀ i ∈ [Item.signed, Item.percent], i.Valid ∧ i.Common := fun i hi => by
    simp only [List.mem_cons, List.not_mem_nil, or_false] at hi
    obtain rfl | rfl := hi <;> exact ⟨trivial, trivial⟩
  have hsame := hall percentFormat (numberArgs 50#64) _ hitems rfl
  exact absurd (congrArg Prod.snd hsame) (by decide)

end Ych.Dwtp
