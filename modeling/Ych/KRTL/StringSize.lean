import Ych.Earlyvideo.Formatters
import Ych.KRTL.CopyBuffer

/-! Strings in memory: `KrtlStringSize`, which moves its pointer on before it reads, and the copy
that `%s` makes. -/
namespace Ych.Krnlstring
open Words X86 Krnlmem Dwtp

namespace InMemory

/-- The loop of `KrtlStringSize`: the addresses that are read, and `pIt` behind it. There are
`2 ^ 64` addresses, so `fuel` only runs out where no byte is zero. -/
def stringSizeLoop (m : Memory) : Nat → BitVec 64 → Option (List (BitVec 64) × BitVec 64)
  | 0, _ => none
  | fuel + 1, pIt =>
    if m (pIt + 1) = 0#8 then some ([pIt + 1], pIt + 1)
    else (stringSizeLoop m fuel (pIt + 1)).map fun r => ((pIt + 1) :: r.1, r.2)

def krtlStringSize (m : Memory) (pString : BitVec 64) : Option (List (BitVec 64) × BitVec 64) :=
  (stringSizeLoop m (2 ^ 64) pString).map fun r => (r.1, r.2 - pString)

/-- The characters of the array, its terminator among them. -/
def nullStrStr : List CHAR := chars "(NULL)" ++ [0#8]

def stringArgument (m : Memory) (pNullStrStr str : BitVec 64) : Option (BitVec 64 × BitVec 32) :=
  if str ≠ 0 then (krtlStringSize m str).map fun r => (str, r.2.setWidth 32)
  else some (pNullStrStr, BitVec.ofNat 32 nullStrStr.length)

def outString (m : Memory) (pNullStrStr outTail str : BitVec 64) : Option (Memory × BitVec 64) :=
  (stringArgument m pNullStrStr str).map fun r =>
    (copyBytes m outTail r.1 r.2.toNat, outTail + r.2.setWidth 64)

end InMemory

variable {m : Memory} {p q pNullStrStr outTail str : BitVec 64} {n k fuel : Nat}
  {text rest : List CHAR}

/-! ### Strings in memory -/

structure NulAt (m : Memory) (p : BitVec 64) (n : Nat) : Prop where
  before : ∀ i < n, m (p + BitVec.ofNat 64 i) ≠ 0#8
  nul : m (p + BitVec.ofNat 64 n) = 0#8

def Holds (m : Memory) (p : BitVec 64) (text : List CHAR) : Prop :=
  ∀ i (h : i < text.length), m (p + BitVec.ofNat 64 i) = text[i]

instance (m : Memory) (p : BitVec 64) (text : List CHAR) : Decidable (Holds m p text) :=
  inferInstanceAs (Decidable (∀ i (h : i < text.length), m (p + BitVec.ofNat 64 i) = text[i]))

def putBytes (m : Memory) (p : BitVec 64) (text : List CHAR) : Memory := fun a =>
  text.getD (a - p).toNat (m a)

theorem NulAt.unique (h : NulAt m p n) (h' : NulAt m p k) : n = k := by
  by_contra hne
  cases Nat.lt_or_gt_of_ne hne with
  | inl hlt => exact h'.before n hlt h.nul
  | inr hgt => exact h.before k hgt h'.nul

theorem NulAt.lt (h : NulAt m p n) : n < 2 ^ 64 := by
  by_contra hge
  have hwrap : BitVec.ofNat 64 (n % 2 ^ 64) = BitVec.ofNat 64 n := by
    apply BitVec.eq_of_toNat_eq
    simp
  have hnul := h.nul
  rw [← hwrap] at hnul
  exact h.before _ (by omega) hnul

theorem add_ofNat_succ (p : BitVec 64) (n : Nat) :
    p + BitVec.ofNat 64 (n + 1) = p + 1 + BitVec.ofNat 64 n := by
  rw [Nat.add_comm, BitVec.ofNat_add, ← BitVec.add_assoc]
  rfl

theorem NulAt.tail (h : NulAt m p (n + 1)) : NulAt m (p + 1) n := by
  constructor
  · intro i hi
    rw [← add_ofNat_succ]
    exact h.before (i + 1) (Nat.succ_lt_succ hi)
  · rw [← add_ofNat_succ]
    exact h.nul

theorem Holds.tail {c : CHAR} (h : Holds m p (c :: text)) : Holds m (p + 1) text := by
  intro i hi
  rw [← add_ofNat_succ]
  exact h (i + 1) (Nat.succ_lt_succ hi)

theorem Holds.nulAt (h : Holds m p (text ++ 0#8 :: rest)) (hnul : 0#8 ∉ text) :
    NulAt m p text.length := by
  constructor
  · intro i hi hzero
    have hbyte := h i (by simp; omega)
    rw [List.getElem_append_left hi, hzero] at hbyte
    rw [hbyte] at hnul
    exact hnul (List.getElem_mem hi)
  · have hbyte := h text.length (by simp)
    simpa using hbyte

/-! ### The size -/

theorem stringSizeLoop_eq (h : NulAt m (p + 1) n) (hf : n < fuel) :
    InMemory.stringSizeLoop m fuel p =
      some ((List.range (n + 1)).map fun i => p + 1 + BitVec.ofNat 64 i,
        p + 1 + BitVec.ofNat 64 n) := by
  induction n generalizing p fuel with
  | zero =>
    cases fuel with
    | zero => simp at hf
    | succ fuel =>
      have hnul := h.nul
      rw [BitVec.add_zero] at hnul
      rw [InMemory.stringSizeLoop, if_pos hnul, BitVec.add_zero]
      simp
  | succ n ih =>
    cases fuel with
    | zero => simp at hf
    | succ fuel =>
      have hfirst := h.before 0 (Nat.succ_pos n)
      rw [BitVec.add_zero] at hfirst
      rw [InMemory.stringSizeLoop, if_neg hfirst, ih h.tail (Nat.lt_of_succ_lt_succ hf),
        List.range_succ_eq_map (n := n + 1)]
      simp only [Option.map_some, List.map_cons, List.map_map, BitVec.add_zero, add_ofNat_succ]
      congr 3
      exact List.map_congr_left fun i _ => (add_ofNat_succ (p + 1) i).symm

theorem krtlStringSize_eq (h : NulAt m (p + 1) n) :
    InMemory.krtlStringSize m p = some ((List.range (n + 1)).map fun i => p + 1 + BitVec.ofNat 64 i,
      BitVec.ofNat 64 (n + 1)) := by
  have hsize : p + 1 + BitVec.ofNat 64 n - p = BitVec.ofNat 64 (n + 1) := by
    bv_omega
  rw [InMemory.krtlStringSize, stringSizeLoop_eq h h.lt, Option.map_some, hsize]

theorem second_mem_loop {r : List (BitVec 64) × BitVec 64}
    (h : InMemory.stringSizeLoop m fuel p = some r) : p + 1 ∈ r.1 := by
  cases fuel with
  | zero => cases h
  | succ fuel =>
    rw [InMemory.stringSizeLoop] at h
    split at h
    · cases h
      exact List.mem_cons_self
    · obtain ⟨r', -, rfl⟩ := Option.map_eq_some_iff.mp h
      exact List.mem_cons_self

theorem second_mem_reads {r : List (BitVec 64) × BitVec 64}
    (h : InMemory.krtlStringSize m p = some r) : p + 1 ∈ r.1 := by
  obtain ⟨r', hloop, rfl⟩ := Option.map_eq_some_iff.mp h
  have hread : p + 1 ∈ r'.1 := second_mem_loop hloop
  exact hread

/-- A string as the formatters see it, with the bytes up to the second zero. -/
def CString.bytes (s : CString) : List CHAR := s.text ++ 0#8 :: (s.behind ++ [0#8])

theorem CString.size_nulAt (s : CString) (h : Holds m p s.bytes) :
    ∃ k, NulAt m (p + 1) k ∧ krtlStringSize s = k + 1 := by
  rw [CString.bytes] at h
  rw [krtlStringSize]
  cases htext : s.text with
  | nil =>
    rw [htext] at h
    exact ⟨s.behind.length, h.tail.nulAt s.behind_ne, Nat.add_comm 1 _⟩
  | cons c rest =>
    have hrest : 0#8 ∉ rest := fun hmem => s.text_ne (htext ▸ List.mem_cons_of_mem c hmem)
    rw [htext] at h
    exact ⟨rest.length, h.tail.nulAt hrest, Nat.add_comm 1 _⟩

/-- What the size of a string is for: it is the offset of the first zero, and nothing behind that
is read. -/
def SizeKept (m : Memory) (p : BitVec 64) (n : Nat) : Prop :=
  ∃ reads, InMemory.krtlStringSize m p = some (reads, BitVec.ofNat 64 n) ∧
    ∀ a ∈ reads, (a - p).toNat ≤ n

theorem sizeKept_iff (h : NulAt m p n) : SizeKept m p n ↔ 0 < n := by
  constructor
  · intro ⟨reads, hsize, hreads⟩
    have hsecond := hreads _ (second_mem_reads hsize)
    have hone : (p + 1 - p).toNat = 1 := by
      bv_omega
    omega
  · intro hpos
    cases n with
    | zero => exact absurd hpos (Nat.lt_irrefl 0)
    | succ n =>
      refine ⟨_, krtlStringSize_eq h.tail, fun a ha => ?_⟩
      obtain ⟨i, hi, rfl⟩ := List.mem_map.mp ha
      have hlt := h.lt
      have hin := List.mem_range.mp hi
      bv_omega

/-! ### The copy -/

def shownAt (pNullStrStr str : BitVec 64) : BitVec 64 := if str = 0 then pNullStrStr else str

/-- What `%s` owes a string of `n` characters: its size is found, and just its characters are
copied. -/
structure StringKept (m : Memory) (pNullStrStr outTail str : BitVec 64) (n : Nat) : Prop where
  size : SizeKept m (shownAt pNullStrStr str) n
  copied : InMemory.outString m pNullStrStr outTail str =
    some (moved m (shownAt pNullStrStr str) outTail 0 n, outTail + BitVec.ofNat 64 n)

theorem nullStrStr_nulAt (h : Holds m pNullStrStr InMemory.nullStrStr) : NulAt m pNullStrStr 6 := by
  have hnul : 0#8 ∉ chars "(NULL)" := by decide
  exact Holds.nulAt h hnul

theorem outString_null (m : Memory) (pNullStrStr outTail : BitVec 64) :
    InMemory.outString m pNullStrStr outTail 0 =
      some (copyBytes m outTail pNullStrStr 7, outTail + 7) := rfl

theorem outString_string (hstr : str ≠ 0) (h : NulAt m (str + 1) n) :
    InMemory.outString m pNullStrStr outTail str =
      some (copyBytes m outTail str ((n + 1) % 2 ^ 32),
        outTail + BitVec.ofNat 64 ((n + 1) % 2 ^ 32)) := by
  have hsmall := h.lt
  rw [InMemory.outString, InMemory.stringArgument, if_pos hstr, krtlStringSize_eq h]
  simp only [Option.map_some]
  have hnat : ((BitVec.ofNat 64 (n + 1)).setWidth 32).toNat = (n + 1) % 2 ^ 32 := by
    rw [BitVec.toNat_setWidth, BitVec.toNat_ofNat]
    omega
  have hword : ((BitVec.ofNat 64 (n + 1)).setWidth 32).setWidth 64 =
      BitVec.ofNat 64 ((n + 1) % 2 ^ 32) := by
    apply BitVec.eq_of_toNat_eq
    rw [BitVec.toNat_setWidth, hnat, BitVec.toNat_ofNat]
  rw [hnat, hword]

theorem Holds.take (h : Holds m p text) (n : Nat) : Holds m p (text.take n) := by
  intro i hi
  have hlt : i < text.length := hi.trans_le (List.length_take_le' n text)
  rw [h i hlt, List.getElem_take]

theorem Holds.copied (h : Holds m p text) (hapart : Apart q p text.length)
    (hlen : text.length ≤ 2 ^ 64) : copyBytes m q p text.length = putBytes m q text := by
  rw [copyBytes_eq hapart.readAhead hlen]
  funext a
  rw [moved, putBytes, List.getD_eq_getElem?_getD]
  generalize hoff : (a - q).toNat = i
  have haddress : a - q = BitVec.ofNat 64 i := by
    rw [← hoff, BitVec.ofNat_toNat, BitVec.setWidth_eq]
  by_cases hin : i < text.length
  · rw [if_pos ⟨Nat.zero_le i, hin⟩, haddress, h i hin, List.getElem?_eq_getElem hin]
    rfl
  · rw [if_neg fun h => hin h.2, List.getElem?_eq_none (Nat.le_of_not_lt hin)]
    rfl

theorem CString.copy_holds (s : CString) (h : Holds m p s.bytes) (n : Nat) :
    Holds m p (s.copy n) := by
  have hbytes := h.take (s.text ++ 0#8 :: s.behind).length
  rw [CString.bytes, ← List.cons_append, ← List.append_assoc, List.take_left] at hbytes
  exact hbytes.take n

/-- `%s` in memory writes what the formatter writes for it, for the empty string and the null
pointer too. -/
theorem outString_written (args : VaList) (next : CHAR)
    (hnull : Holds m pNullStrStr InMemory.nullStrStr)
    (hstr : (args 0).word ≠ 0 → Holds m (args 0).word (args 0).string.bytes)
    (hapart : Apart outTail (shownAt pNullStrStr (args 0).word)
      (Item.string.written args next).length) :
    InMemory.outString m pNullStrStr outTail (args 0).word =
      some (putBytes m outTail (Item.string.written args next),
        outTail + BitVec.ofNat 64 (Item.string.written args next).length) := by
  rw [Item.written] at hapart ⊢
  by_cases hword : (args 0).word = 0
  · rw [shownAt, if_pos hword, if_neg (not_not_intro hword)] at hapart
    rw [if_neg (not_not_intro hword), hword, outString_null]
    have hcopied := hnull.copied hapart (by decide)
    rw [← InMemory.nullStrStr, ← hcopied]
    rfl
  · rw [shownAt, if_neg hword, if_pos hword] at hapart
    rw [if_pos hword]
    obtain ⟨k, hnul, hsize⟩ := (args 0).string.size_nulAt (hstr hword)
    have hlength := copy_length (args 0).string
    have hsmall := wrap32_lt (krtlStringSize (args 0).string)
    have hholds := (args 0).string.copy_holds (hstr hword)
      (wrap32 (krtlStringSize (args 0).string))
    rw [← hholds.copied hapart (by omega), hlength, hsize, outString_string hword hnul]
    rfl

theorem outString_runs {r : Memory × BitVec 64}
    (h : InMemory.outString m pNullStrStr outTail str = some r) :
    ∃ src N, r.2 = outTail + N ∧ ∀ s, Called m outTail src N s → s.df = false →
      ∃ t, Runs krtlContiguousCopyBuffer s t ∧ Returns krtlContiguousCopyBuffer t ∧
        t.memory = r.1 := by
  obtain ⟨⟨src, strlen⟩, -, rfl⟩ := Option.map_eq_some_iff.mp h
  refine ⟨src, strlen.setWidth 64, rfl, fun s hcalled hdf => ?_⟩
  obtain ⟨t, hrun, hcopied⟩ := krtlContiguousCopyBuffer_copied hcalled hdf
  refine ⟨t, hrun, hcopied.returns, hcopied.memory.trans ?_⟩
  rw [BitVec.toNat_setWidth_of_le (by decide)]

/-- The strings that `%s` prints as they are: not the null pointer, not the empty ones, and none
whose size is cut to 32 bits. -/
theorem stringKept_iff (m : Memory) (pNullStrStr outTail str : BitVec 64) (n : Nat)
    (hnull : Holds m pNullStrStr InMemory.nullStrStr)
    (hnul : NulAt m (shownAt pNullStrStr str) n)
    (hapart : Apart outTail (shownAt pNullStrStr str) n) :
    StringKept m pNullStrStr outTail str n ↔ str ≠ 0 ∧ 0 < n ∧ n < 2 ^ 32 := by
  by_cases hstr : str = 0
  · refine iff_of_false (fun hkept => ?_) fun h => h.1 hstr
    have hcopied := hkept.copied
    rw [shownAt, if_pos hstr] at hnul
    rw [hstr, outString_null, hnul.unique (nullStrStr_nulAt hnull), Option.some.injEq,
      Prod.mk.injEq] at hcopied
    have htail := hcopied.2
    bv_omega
  · have hshown : shownAt pNullStrStr str = str := if_neg hstr
    rw [hshown] at hnul hapart
    have hlt := hnul.lt
    constructor
    · intro ⟨hsize, hcopied⟩
      rw [hshown] at hsize hcopied
      have hpos := (sizeKept_iff hnul).mp hsize
      refine ⟨hstr, hpos, ?_⟩
      cases n with
      | zero => exact absurd hpos (Nat.lt_irrefl 0)
      | succ n =>
        rw [outString_string hstr hnul.tail, Option.some.injEq, Prod.mk.injEq] at hcopied
        have htail := hcopied.2
        bv_omega
    · intro ⟨_, hpos, hsmall⟩
      cases n with
      | zero => exact absurd hpos (Nat.lt_irrefl 0)
      | succ n =>
        constructor
        · rw [hshown, sizeKept_iff hnul]
          exact hpos
        · rw [hshown, outString_string hstr hnul.tail, Nat.mod_eq_of_lt hsmall,
            copyBytes_eq hapart.readAhead (Nat.le_of_lt hlt)]

def twoStrings : Memory := fun a =>
  if a = 0x1001 then ch 'A' else InMemory.nullStrStr.getD (a - 0x2000).toNat 0

theorem stringKept_iff_character :
    StringKept twoStrings 0x2000 0x3000 0x1001 1 ↔ (0x1001 : BitVec 64) ≠ 0 ∧ 0 < 1 ∧ 1 < 2 ^ 32 :=
  stringKept_iff twoStrings 0x2000 0x3000 0x1001 1 (by decide) ⟨by decide, by decide⟩ (by decide)

/-- The empty string is not kept: the character behind its terminator is read and copied. -/
theorem empty_string_copied : ¬∀ (m : Memory) (pNullStrStr outTail str : BitVec 64) (n : Nat),
    Holds m pNullStrStr InMemory.nullStrStr → NulAt m (shownAt pNullStrStr str) n →
    Apart outTail (shownAt pNullStrStr str) n → StringKept m pNullStrStr outTail str n := by
  intro hall
  have hkept := hall twoStrings 0x2000 0x3000 0x1000 0 (by decide) ⟨by decide, by decide⟩
    (by decide)
  have hnext : NulAt twoStrings (0x1000 + 1) 1 := ⟨by decide, by decide⟩
  have hshown : shownAt 0x2000 0x1000 = 0x1000 := rfl
  obtain ⟨reads, hsize, -⟩ := hkept.size
  rw [hshown, krtlStringSize_eq hnext, Option.some.injEq, Prod.mk.injEq] at hsize
  exact absurd hsize.2 (by decide)

end Ych.Krnlstring
