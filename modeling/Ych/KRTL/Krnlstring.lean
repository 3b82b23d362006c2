import Ych.Base.Words

/-! Strings of the kernel runtime library: numbers as text, and formatting into a buffer. A string
is the list of its characters up to the terminator. -/
namespace Ych.Krnlstring
open Words

abbrev CHAR := BitVec 8
abbrev INT := BitVec 32

def ch (c : Char) : CHAR := BitVec.ofNat 8 c.toNat

def chars (text : String) : List CHAR := text.toList.map ch

def KRTL_RADIX_OCTAL : Nat := 8
def KRTL_RADIX_DECIMAL : Nat := 10
def KRTL_RADIX_HEXADECIMAL : Nat := 16

def KRTL_HEX_LOWERCASE : Nat := 0
def KRTL_HEX_UPPERCASE : Nat := 1

/-- A string in memory: its characters, and those between its terminator and the next zero. -/
structure CString where
  text : List CHAR
  behind : List CHAR
  text_ne : 0#8 ∉ text
  behind_ne : 0#8 ∉ behind

def krtlStringSize (s : CString) : Nat :=
  match s.text with
  | [] => 1 + s.behind.length
  | _ :: rest => 1 + rest.length

/-- What copying `n` characters from the start of the string copies, up to the second zero. -/
def CString.copy (s : CString) (n : Nat) : List CHAR := (s.text ++ 0#8 :: s.behind).take n

def krtlReverseString (str : List CHAR) : List CHAR := str.reverse

def krtlDigitChar (r hexCasePreference : Nat) : CHAR :=
  if r < KRTL_RADIX_DECIMAL then BitVec.ofNat 8 r + ch '0'
  else BitVec.ofNat 8 (r - KRTL_RADIX_DECIMAL) +
    (if hexCasePreference = KRTL_HEX_UPPERCASE then ch 'A' else ch 'a')

/-- The digits from the lowest up; 64 of them are enough for a 64-bit value. -/
def digitLoop (radix hexCasePreference : Nat) : Nat → Nat → List CHAR
  | 0, _ => []
  | fuel + 1, value =>
    if value = 0 then []
    else krtlDigitChar (value % radix) hexCasePreference ::
      digitLoop radix hexCasePreference fuel (value / radix)

/-- The same with signed division and remainder, which round towards zero; the remainder is made
a `QWORD`. -/
def signedDigitLoop (radix hexCasePreference : Nat) : Nat → Int → List CHAR
  | 0, _ => []
  | fuel + 1, value =>
    if value = 0 then []
    else krtlDigitChar (toSize (value.tmod radix)) hexCasePreference ::
      signedDigitLoop radix hexCasePreference fuel (value.tdiv radix)

/-- `-Value` in 64 bits: the lowest value is its own negation. -/
def negate (value : Int) : Int := (-value).bmod (2 ^ 64)

def krtlSignedToString (value : Int) (radix hexCasePreference : Nat) : List CHAR :=
  if value = 0 then [ch '0']
  else krtlReverseString
    (signedDigitLoop radix hexCasePreference 64 (if value < 0 then negate value else value) ++
      if value < 0 then [ch '-'] else [])

def krtlUnsignedToString (value radix hexCasePreference : Nat) : List CHAR :=
  if value = 0 then [ch '0']
  else krtlReverseString (digitLoop radix hexCasePreference 64 value)

/-- An argument: its 64 bits, and the string there if they are a pointer to one. -/
structure VaArg where
  word : BitVec 64
  string : CString

/-- The arguments from the next one on; behind the last there is whatever was left there. -/
abbrev VaList := Nat → VaArg

namespace VaList

def rest (args : VaList) : VaList := fun i => args (i + 1)

def int (args : VaList) : BitVec 32 := (args 0).word.setWidth 32

def quadword (args : VaList) : Nat := (args 0).word.toNat

end VaList

def written (out : List CHAR) : INT := BitVec.ofNat 32 out.length

def copyBuf (buf : List CHAR) : List CHAR := buf.take (wrap32 buf.length)

/-- `out` is what has been written to the buffer, `upper` the flag `HexOrBoolCase`. -/
def krtlFormat (limit : INT) : List CHAR → VaList → List CHAR → Bool → INT × List CHAR
  | [], _, out, _ => (written out, out)
  | c :: format, args, out, upper =>
    if limit ≠ -1 ∧ limit.sle (written out) then (written out, out)
    else if c ≠ ch '%' then krtlFormat limit format args (out ++ [c]) upper
    else
      match format with
      | [] => (-1, out)
      | d :: format =>
        if d = ch '%' then krtlFormat limit format args (out ++ [format.headD 0#8]) upper
        else if d = ch 'c' then
          krtlFormat limit format args.rest (out ++ [args.int.setWidth 8]) upper
        else if d = ch 'B' ∨ d = ch 'b' then
          let upper := d = ch 'B' || upper
          let stringOfChoice :=
            if args.int ≠ 0 then (if upper then "TRUE" else "true")
            else (if upper then "FALSE" else "false")
          krtlFormat limit format args.rest (out ++ chars stringOfChoice) false
        else if d = ch 's' then
          let str :=
            if (args 0).word ≠ 0 then
              (args 0).string.copy (wrap32 (krtlStringSize (args 0).string))
            else chars "(NULL)" ++ [0#8]
          krtlFormat limit format args.rest (out ++ str) upper
        else if d = ch 'd' ∨ d = ch 'i' then
          let buf := krtlSignedToString args.int.toInt KRTL_RADIX_DECIMAL 0
          krtlFormat limit format args.rest (out ++ copyBuf buf) upper
        else if d = ch 'u' then
          let buf := krtlUnsignedToString args.int.toNat KRTL_RADIX_DECIMAL 0
          krtlFormat limit format args.rest (out ++ copyBuf buf) upper
        else if d = ch 'o' then
          let buf := krtlUnsignedToString args.int.toNat KRTL_RADIX_OCTAL 0
          krtlFormat limit format args.rest (out ++ copyBuf buf) upper
        else if d = ch 'X' ∨ d = ch 'x' then
          let upper := d = ch 'X' || upper
          let buf := krtlUnsignedToString args.int.toNat KRTL_RADIX_HEXADECIMAL
            (if upper then KRTL_HEX_UPPERCASE else KRTL_HEX_LOWERCASE)
          krtlFormat limit format args.rest (out ++ copyBuf buf) false
        else if d = ch 'p' then
          let buf := krtlUnsignedToString args.quadword KRTL_RADIX_HEXADECIMAL KRTL_HEX_UPPERCASE
          krtlFormat limit format args.rest (out ++ [ch '0', ch 'x'] ++ copyBuf buf) upper
        else if d = ch 'R' then
          match format with
          | [] => (-1, out)
          | e :: format =>
            if e = ch 'u' then
              let buf := krtlUnsignedToString args.quadword KRTL_RADIX_DECIMAL 0
              krtlFormat limit format args.rest (out ++ copyBuf buf) upper
            else if e = ch 'X' ∨ e = ch 'x' then
              let upper := e = ch 'X' || upper
              let buf := krtlUnsignedToString args.quadword KRTL_RADIX_HEXADECIMAL
                (if upper then KRTL_HEX_UPPERCASE else KRTL_HEX_LOWERCASE)
              krtlFormat limit format args.rest (out ++ copyBuf buf) false
            else (-1, out)
        else (-1, out)

def krtlFormatStringVariadic (limit : INT) (format : CString) (args : VaList) :
    INT × List CHAR := krtlFormat limit format.text args [] false

end Ych.Krnlstring
