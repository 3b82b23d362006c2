import Ych.Earlyvideo.DisplaywideTextProtocol

/-! Format strings as items, and what one item makes the printing formatter do. -/
namespace Ych.Dwtp
open Words Krnlstring

inductive Item where
  | literal (c : CHAR)
  | percent
  | char
  | bool
  | boolUpper
  | string
  | signed
  | integer
  | unsigned
  | octal
  | hexUpper
  | hexLower
  | pointer
  | unsigned64
  | hexUpper64
  | hexLower64

namespace Item

def render : Item → List CHAR
  | literal c => [c]
  | percent => [ch '%', ch '%']
  | char => [ch '%', ch 'c']
  | bool => [ch '%', ch 'b']
  | boolUpper => [ch '%', ch 'B']
  | string => [ch '%', ch 's']
  | signed => [ch '%', ch 'd']
  | integer => [ch '%', ch 'i']
  | unsigned => [ch '%', ch 'u']
  | octal => [ch '%', ch 'o']
  | hexUpper => [ch '%', ch 'X']
  | hexLower => [ch '%', ch 'x']
  | pointer => [ch '%', ch 'p']
  | unsigned64 => [ch '%', ch 'R', ch 'u']
  | hexUpper64 => [ch '%', ch 'R', ch 'X']
  | hexLower64 => [ch '%', ch 'R', ch 'x']

theorem render_pos (i : Item) : 0 < i.render.length := by
  cases i <;> exact Nat.succ_pos _

def Valid : Item → Prop
  | literal c => c ≠ ch '%'
  | _ => True

def takesArgument : Item → Bool
  | literal _ => false
  | percent => false
  | _ => true

def argsAfter (i : Item) (args : VaList) : VaList := if i.takesArgument then args.rest else args

/-- What the printing formatter prints for the item; it does not know `%B`. -/
def printed (i : Item) (args : VaList) : Option (List CHAR) :=
  match i with
  | literal c => some [c]
  | percent => some [ch '%']
  | char => some [args.int.setWidth 8]
  | bool => some (chars (if args.int ≠ 0 then "true" else "false"))
  | boolUpper => none
  | string => some (if (args 0).word = 0 then chars "(NULL)" else (args 0).string.text)
  | signed | integer =>
    some (krtlSignedToString args.int.toInt KRTL_RADIX_DECIMAL KRTL_HEX_UPPERCASE)
  | unsigned => some (krtlUnsignedToString args.int.toNat KRTL_RADIX_DECIMAL KRTL_HEX_UPPERCASE)
  | octal => some (krtlSignedToString args.int.toNat KRTL_RADIX_OCTAL KRTL_HEX_UPPERCASE)
  | hexUpper | hexLower =>
    some (krtlUnsignedToString args.int.toNat KRTL_RADIX_HEXADECIMAL KRTL_HEX_UPPERCASE)
  | pointer => some (chars "0x" ++
      krtlUnsignedToString args.quadword KRTL_RADIX_HEXADECIMAL KRTL_HEX_UPPERCASE)
  | unsigned64 =>
    some (krtlUnsignedToString args.quadword KRTL_RADIX_DECIMAL KRTL_HEX_UPPERCASE)
  | hexUpper64 | hexLower64 =>
    some (krtlUnsignedToString args.quadword KRTL_RADIX_HEXADECIMAL KRTL_HEX_UPPERCASE)

end Item

def specifiers : List CHAR :=
  [ch '%', ch 'c', ch 'B', ch 'b', ch 's', ch 'd', ch 'i', ch 'u', ch 'o', ch 'X', ch 'x', ch 'p']

def BadSpecifier : List CHAR → Prop
  | [] => True
  | d :: rest =>
    if d = ch 'R' then ∀ e ∈ rest.head?, e ≠ ch 'u' ∧ e ≠ ch 'X' ∧ e ≠ ch 'x'
    else d ∉ specifiers

theorem BadSpecifier.cases {rest : List CHAR} (h : BadSpecifier rest) :
    rest = [] ∨ rest = [ch 'R'] ∨
      (∃ e tail, rest = ch 'R' :: e :: tail ∧ e ≠ ch 'u' ∧ e ≠ ch 'X' ∧ e ≠ ch 'x') ∨
      ∃ d tail, rest = d :: tail ∧ d ≠ ch 'R' ∧ d ∉ specifiers := by
  cases rest with
  | nil => exact Or.inl rfl
  | cons d rest =>
    by_cases hd : d = ch 'R'
    · rw [BadSpecifier, if_pos hd] at h
      subst hd
      cases rest with
      | nil => exact Or.inr (Or.inl rfl)
      | cons e tail => exact Or.inr (Or.inr (Or.inl ⟨e, tail, rfl, h e rfl⟩))
    · rw [BadSpecifier, if_neg hd] at h
      exact Or.inr (Or.inr (Or.inr ⟨d, rest, rfl, hd, h⟩))

/-- A format string is empty, begins with an item, or is malformed at its beginning. -/
theorem format_cases (format : List CHAR) :
    format = [] ∨ (∃ i rest, Item.Valid i ∧ format = i.render ++ rest) ∨
      ∃ rest, format = ch '%' :: rest ∧ BadSpecifier rest := by
  cases format with
  | nil => exact Or.inl rfl
  | cons c format =>
    refine Or.inr ?_
    by_cases hc : c = ch '%'
    · subst hc
      cases format with
      | nil => exact Or.inr ⟨[], rfl, trivial⟩
      | cons d format =>
        by_cases hd : d = ch 'R'
        · subst hd
          cases format with
          | nil => exact Or.inr ⟨_, rfl, fun e he => absurd he (by simp)⟩
          | cons e format =>
            by_cases hu : e = ch 'u'
            · exact Or.inl ⟨.unsigned64, format, trivial, hu ▸ rfl⟩
            by_cases hX : e = ch 'X'
            · exact Or.inl ⟨.hexUpper64, format, trivial, hX ▸ rfl⟩
            by_cases hx : e = ch 'x'
            · exact Or.inl ⟨.hexLower64, format, trivial, hx ▸ rfl⟩
            refine Or.inr ⟨_, rfl, ?_⟩
            rw [BadSpecifier, if_pos rfl]
            rintro e' ⟨⟩
            exact ⟨hu, hX, hx⟩
        · by_cases hspec : d ∈ specifiers
          · simp only [specifiers, List.mem_cons, List.not_mem_nil, or_false] at hspec
            obtain rfl | rfl | rfl | rfl | rfl | rfl | rfl | rfl | rfl | rfl | rfl | rfl := hspec
            · exact Or.inl ⟨.percent, format, trivial, rfl⟩
            · exact Or.inl ⟨.char, format, trivial, rfl⟩
            · exact Or.inl ⟨.boolUpper, format, trivial, rfl⟩
            · exact Or.inl ⟨.bool, format, trivial, rfl⟩
            · exact Or.inl ⟨.string, format, trivial, rfl⟩
            · exact Or.inl ⟨.signed, format, trivial, rfl⟩
            · exact Or.inl ⟨.integer, format, trivial, rfl⟩
            · exact Or.inl ⟨.unsigned, format, trivial, rfl⟩
            · exact Or.inl ⟨.octal, format, trivial, rfl⟩
            · exact Or.inl ⟨.hexUpper, format, trivial, rfl⟩
            · exact Or.inl ⟨.hexLower, format, trivial, rfl⟩
            · exact Or.inl ⟨.pointer, format, trivial, rfl⟩
          · refine Or.inr ⟨_, rfl, ?_⟩
            rw [BadSpecifier, if_neg hd]
            exact hspec
    · exact Or.inl ⟨.literal c, format, hc, rfl⟩

section
variable {m : Type → Type} [Monad m] {σ : Type} (out : σ → CHAR → m σ)

theorem outFormat_bad {rest : List CHAR} (h : BadSpecifier rest) (args : VaList) (s : σ)
    (n : INT) : outFormat out (ch '%' :: rest) args s n = pure (-1, s) := by
  rw [outFormat.eq_def]
  obtain rfl | rfl | ⟨e, tail, rfl, hu, hX, hx⟩ | ⟨d, tail, rfl, hd, hspec⟩ := h.cases
  · simp
  · simp [ch]
  · simp [hu, hX, hx]
    simp [ch]
  · simp only [specifiers, List.mem_cons, List.not_mem_nil, or_false, not_or] at hspec
    simp [hspec, hd]

variable [LawfulMonad m]

theorem outText_eq (text : List CHAR) (s : σ) (n : INT) :
    outText out text s n =
      text.foldlM out s >>= fun s => pure (n + BitVec.ofNat 32 text.length, s) := by
  induction text generalizing s n with
  | nil => simp [outText]
  | cons c text ih =>
    rw [outText, List.foldlM_cons, bind_assoc]
    refine bind_congr fun s => ?_
    rw [ih, List.length_cons, Nat.add_comm, BitVec.ofNat_add, ← BitVec.add_assoc]
    rfl

theorem outCounted_eq (text : List CHAR) (s : σ) (n : INT) :
    outCounted out text s n =
      text.foldlM out s >>= fun s => pure (n + BitVec.ofNat 32 text.length, s) := by
  rw [outCounted, outText_eq]
  simp

theorem outFormat_item (i : Item) (hi : i.Valid) (rest : List CHAR) (args : VaList) (s : σ)
    (n : INT) :
    outFormat out (i.render ++ rest) args s n =
      match i.printed args with
      | none => pure (-1, s)
      | some text => text.foldlM out s >>= fun s =>
        outFormat out rest (i.argsAfter args) s (n + BitVec.ofNat 32 text.length) := by
  cases i with
  | literal c =>
    have hc : c ≠ ch '%' := hi
    rw [Item.render, List.singleton_append, outFormat.eq_def]
    simp [hc, Item.printed, Item.argsAfter, Item.takesArgument]
  | percent =>
    rw [Item.render, List.cons_append, List.singleton_append, outFormat.eq_def]
    simp [Item.printed, Item.argsAfter, Item.takesArgument]
  | pointer =>
    rw [Item.render, List.cons_append, List.singleton_append, outFormat.eq_def]
    simp [Item.printed, Item.argsAfter, Item.takesArgument, ch, outCounted_eq, BitVec.ofNat_add,
      BitVec.add_assoc]
  | _ =>
    rw [Item.render, List.cons_append, List.cons_append, outFormat.eq_def]
    simp [Item.printed, Item.argsAfter, Item.takesArgument, ch, outCounted_eq]

end

structure Formats (format : List CHAR) (args : VaList) (n result : INT) (text : List CHAR) :
    Prop where
  run : ∀ {m : Type → Type} [Monad m] [LawfulMonad m] {σ : Type} (out : σ → CHAR → m σ) (s : σ),
    outFormat out format args s n = text.foldlM out s >>= fun s => pure (result, s)

theorem exists_formats (format : List CHAR) (args : VaList) (n : INT) :
    ∃ result text, Formats format args n result text := by
  induction h : format.length using Nat.strong_induction_on generalizing format args n with
  | _ len ih =>
    obtain rfl | ⟨i, rest, hi, rfl⟩ | ⟨rest, rfl, hbad⟩ := format_cases format
    · exact ⟨n, [], ⟨fun out s => by simp [outFormat]⟩⟩
    · cases hprinted : i.printed args with
      | none =>
        refine ⟨-1, [], ⟨fun out s => ?_⟩⟩
        rw [outFormat_item out i hi, hprinted]
        simp
      | some text =>
        have hlen : rest.length < len := by
          rw [← h, List.length_append]
          have := i.render_pos
          omega
        obtain ⟨result, tail, hrest⟩ := ih _ hlen rest (i.argsAfter args)
          (n + BitVec.ofNat 32 text.length) rfl
        refine ⟨result, text ++ tail, ⟨fun out s => ?_⟩⟩
        rw [outFormat_item out i hi, hprinted, List.foldlM_append, bind_assoc]
        exact bind_congr fun s => hrest.run out s
    · exact ⟨-1, [], ⟨fun out s => by rw [outFormat_bad out hbad]; simp⟩⟩

theorem foldlM_record (text passed : List CHAR) :
    Id.run (text.foldlM (fun passed c => pure (passed ++ [c])) passed) = passed ++ text := by
  induction text generalizing passed with
  | nil => simp
  | cons c text ih =>
    rw [List.foldlM_cons, Id.run_bind]
    simpa using ih (passed ++ [c])

theorem Formats.eq {format : CString} {args : VaList} {result : INT} {text : List CHAR}
    (h : Formats format.text args 0 result text) : formattedText format args = (result, text) := by
  rw [formattedText, h.run, Id.run_bind, foldlM_record, List.nil_append]
  rfl

theorem outFormat_eq {m : Type → Type} [Monad m] [LawfulMonad m] {σ : Type}
    (out : σ → CHAR → m σ) (format : CString) (args : VaList) (s : σ) :
    outFormat out format.text args s 0 = (formattedText format args).2.foldlM out s >>= fun s =>
      pure ((formattedText format args).1, s) := by
  obtain ⟨result, text, h⟩ := exists_formats format.text args 0
  rw [h.run, h.eq]

end Ych.Dwtp
