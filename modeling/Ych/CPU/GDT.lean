import Ych.Base.BitFields

/-! The segment descriptors of the global descriptor table. -/
namespace Ych.GDT
open Bitmap BitFields ByteMemory ByteStrings

/-- Limit and base are of 32 bits, the other fields are bytes. -/
structure KrGlobalDescriptorTableSegmentDescriptor where
  limit : Nat
  base : Nat
  accessAccessed : Nat
  accessReadWrite : Nat
  accessDC : Nat
  accessExecutable : Nat
  accessDescType : Nat
  accessDPL : Nat
  accessPresent : Nat
  flagsReserved : Nat
  flagsLongModeCode : Nat
  flagsSize : Nat
  flagsGranularity : Nat
  deriving DecidableEq

inductive KrEncodeSegmentDescriptorResult where
  | success
  | limitTooLarge
  deriving DecidableEq

variable (src : KrGlobalDescriptorTableSegmentDescriptor)

def accessByte : Nat :=
  (src.accessPresent &&& 0x01) <<< 7 ||| (src.accessDPL &&& 0x03) <<< 5 |||
    (src.accessDescType &&& 0x01) <<< 4 ||| (src.accessExecutable &&& 0x01) <<< 3 |||
    (src.accessDC &&& 0x01) <<< 2 ||| (src.accessReadWrite &&& 0x01) <<< 1 |||
    (src.accessAccessed &&& 0x01) <<< 0

def flagBits : Nat :=
  (src.flagsGranularity &&& 0x01) <<< 3 ||| (src.flagsSize &&& 0x01) <<< 2 |||
    (src.flagsLongModeCode &&& 0x01) <<< 1 ||| (src.flagsReserved &&& 0x01) <<< 0

/-- The bytes in the order they are written; each is cut off to a `BYTE` as it is stored. -/
def descriptorBytes : List Nat :=
  [(src.limit >>> 0) &&& 0xFF, (src.limit >>> 8) &&& 0xFF,
    (src.base >>> 0) &&& 0xFF, (src.base >>> 8) &&& 0xFF, (src.base >>> 16) &&& 0xFF,
    accessByte src, (flagBits src <<< 4) ||| ((src.limit >>> 12) &&& 0xF),
    (src.base >>> 24) &&& 0xFF]

def krEncodeSegmentDescriptor (m : Bytes) (pDest : Nat) :
    KrEncodeSegmentDescriptorResult × Bytes :=
  if 0xFFFFF < src.limit then (.limitTooLarge, m)
  else (.success, put m pDest ((descriptorBytes src).map (BitVec.ofNat 8)))

def decodeSegmentDescriptor (m : Bytes) (p : Nat) : KrGlobalDescriptorTableSegmentDescriptor :=
  let entry := load m p 8
  { limit := bits entry 0 16 + 2 ^ 16 * bits entry 48 4
    base := bits entry 16 24 + 2 ^ 24 * bits entry 56 8
    accessAccessed := bits entry 40 1
    accessReadWrite := bits entry 41 1
    accessDC := bits entry 42 1
    accessExecutable := bits entry 43 1
    accessDescType := bits entry 44 1
    accessDPL := bits entry 45 2
    accessPresent := bits entry 47 1
    flagsReserved := bits entry 52 1
    flagsLongModeCode := bits entry 53 1
    flagsSize := bits entry 54 1
    flagsGranularity := bits entry 55 1 }

structure KrGlobalDescriptorTableSegmentDescriptor.InRange : Prop where
  base : src.base < 2 ^ 32
  accessAccessed : src.accessAccessed < 2
  accessReadWrite : src.accessReadWrite < 2
  accessDC : src.accessDC < 2
  accessExecutable : src.accessExecutable < 2
  accessDescType : src.accessDescType < 2
  accessDPL : src.accessDPL < 4
  accessPresent : src.accessPresent < 2
  flagsReserved : src.flagsReserved < 2
  flagsLongModeCode : src.flagsLongModeCode < 2
  flagsSize : src.flagsSize < 2
  flagsGranularity : src.flagsGranularity < 2

/-- A descriptor that is encoded can be read back; one that is refused leaves the memory as it
was. -/
def EncodedWell (m : Bytes) (pDest : Nat) : Prop :=
  (src.limit ≤ 0xFFFFF →
    decodeSegmentDescriptor (krEncodeSegmentDescriptor src m pDest).2 pDest = src) ∧
  (0xFFFFF < src.limit → (krEncodeSegmentDescriptor src m pDest).2 = m)

def accessFields : List (Nat × Nat) :=
  [(1, src.accessAccessed), (1, src.accessReadWrite), (1, src.accessDC),
    (1, src.accessExecutable), (1, src.accessDescType), (2, src.accessDPL),
    (1, src.accessPresent)]

def flagFields : List (Nat × Nat) :=
  [(1, src.flagsReserved), (1, src.flagsLongModeCode), (1, src.flagsSize),
    (1, src.flagsGranularity)]

variable {src} {m : Bytes} {pDest : Nat}

theorem and_one_eq (x : Nat) : x &&& 0x01 = x % 2 ^ 1 := Nat.and_two_pow_sub_one_eq_mod x 1

theorem accessByte_eq (src : KrGlobalDescriptorTableSegmentDescriptor) :
    accessByte src = pack (accessFields src) := by
  have hthree : src.accessDPL &&& 0x03 = src.accessDPL % 2 ^ 2 :=
    Nat.and_two_pow_sub_one_eq_mod _ 2
  simp only [accessByte, and_one_eq, hthree, shiftLeft_or_field, Nat.reduceAdd]
  simp [pack, accessFields]

theorem flagBits_eq (src : KrGlobalDescriptorTableSegmentDescriptor) :
    flagBits src = pack (flagFields src) := by
  simp only [flagBits, and_one_eq, shiftLeft_or_field, Nat.reduceAdd]
  simp [pack, flagFields]

/-- The entry's fields, the lowest first, with what is written to the four high bits of the
limit. -/
def entryFields (src : KrGlobalDescriptorTableSegmentDescriptor) : List (Nat × Nat) :=
  (16, src.limit) :: (24, src.base) :: (accessFields src ++
    ((4, src.limit / 2 ^ 12) :: flagFields src ++ [(8, src.base / 2 ^ 24)]))

theorem flagByte_eq (src : KrGlobalDescriptorTableSegmentDescriptor) :
    (flagBits src <<< 4) ||| ((src.limit >>> 12) &&& 0xF) =
      pack ((4, src.limit / 2 ^ 12) :: flagFields src) := by
  have hfour : (src.limit >>> 12) &&& 0xF = (src.limit / 2 ^ 12 % 2 ^ 4) <<< 0 := by
    rw [Nat.shiftLeft_zero, Nat.shiftRight_eq_div_pow]
    exact Nat.and_two_pow_sub_one_eq_mod _ 4
  rw [hfour, shiftLeft_or_field _ (by decide), Nat.shiftLeft_zero, flagBits_eq, pack]

theorem pack_descriptorBytes (src : KrGlobalDescriptorTableSegmentDescriptor) :
    pack ((descriptorBytes src).map fun value => (8, value)) = pack (entryFields src) := by
  have hbyte : ∀ x k, (x >>> k) &&& 0xFF = x / 2 ^ k % 2 ^ 8 := by
    intro x k
    rw [← Nat.shiftRight_eq_div_pow]
    exact Nat.and_two_pow_sub_one_eq_mod _ 8
  have hflags : pack [(8, pack ((4, src.limit / 2 ^ 12) :: flagFields src)),
      (8, src.base / 2 ^ 24 % 2 ^ 8)] =
      pack ((4, src.limit / 2 ^ 12) :: flagFields src ++ [(8, src.base / 2 ^ 24)]) := by
    rw [← pack_nested]
    exact pack_cons_congr _ pack_mod
  have haccess : pack [(8, pack (accessFields src)),
      (8, pack ((4, src.limit / 2 ^ 12) :: flagFields src)), (8, src.base / 2 ^ 24 % 2 ^ 8)] =
      pack (accessFields src ++ ((4, src.limit / 2 ^ 12) :: flagFields src ++
        [(8, src.base / 2 ^ 24)])) := by
    rw [← pack_nested]
    exact pack_cons_congr _ hflags
  have hbase : ∀ rest, pack ((8, src.base) :: (8, src.base / 2 ^ 8 % 2 ^ 8) ::
      (8, src.base / 2 ^ 16 % 2 ^ 8) :: rest) = pack ((24, src.base) :: rest) := fun _ =>
    pack_split.trans pack_split
  simp only [descriptorBytes, List.map_cons, List.map_nil, hbyte, accessByte_eq, flagByte_eq,
    Nat.pow_zero, Nat.div_one, pack_mod, pack_split]
  refine pack_cons_congr _ ?_
  rw [pack_mod]
  rw [hbase]
  exact pack_cons_congr _ haccess

theorem load_encoded (h : src.limit ≤ 0xFFFFF) :
    load (krEncodeSegmentDescriptor src m pDest).2 pDest 8 = pack (entryFields src) := by
  rw [krEncodeSegmentDescriptor, if_neg (Nat.not_lt.mpr h), ← pack_descriptorBytes]
  exact load_put m pDest (descriptorBytes src)

theorem decode_encoded (h : src.limit ≤ 0xFFFFF) (hrange : src.InRange) :
    decodeSegmentDescriptor (krEncodeSegmentDescriptor src m pDest).2 pDest =
      { src with limit := src.limit % 2 ^ 16 + 2 ^ 16 * (src.limit / 2 ^ 12 % 2 ^ 4) } := by
  have hbase : src.base % 2 ^ 24 + 2 ^ 24 * (src.base / 2 ^ 24 % 2 ^ 8) = src.base := by
    have := hrange.base
    omega
  simp only [decodeSegmentDescriptor, load_encoded h, entryFields, accessFields, flagFields,
    List.cons_append, List.nil_append]
  have hkept : ∀ {x n : Nat}, x < n → x % n = x := Nat.mod_eq_of_lt
  simpa [bits_pack_tail, hkept hrange.accessAccessed, hkept hrange.accessReadWrite,
    hkept hrange.accessDC, hkept hrange.accessExecutable, hkept hrange.accessDescType,
    hkept hrange.accessDPL, hkept hrange.accessPresent, hkept hrange.flagsReserved,
    hkept hrange.flagsLongModeCode, hkept hrange.flagsSize, hkept hrange.flagsGranularity]
    using hbase

theorem limit_kept_iff :
    { src with limit := src.limit % 2 ^ 16 + 2 ^ 16 * (src.limit / 2 ^ 12 % 2 ^ 4) } = src ↔
      src.limit / 2 ^ 12 % 2 ^ 4 = src.limit / 2 ^ 16 := by
  constructor
  · intro hsame
    have hlimit := congrArg KrGlobalDescriptorTableSegmentDescriptor.limit hsame
    simp only at hlimit
    omega
  · intro hhigh
    have hlimit : src.limit % 2 ^ 16 + 2 ^ 16 * (src.limit / 2 ^ 12 % 2 ^ 4) = src.limit := by
      omega
    rw [hlimit]

/-- A descriptor is encoded well exactly if bits 12 to 15 of its limit, which go where bits 16 to
19 belong, are the same as these. -/
theorem encodedWell_iff (src : KrGlobalDescriptorTableSegmentDescriptor) (hrange : src.InRange)
    (m : Bytes) (pDest : Nat) :
    EncodedWell src m pDest ↔
      (src.limit ≤ 0xFFFFF → src.limit / 2 ^ 12 % 2 ^ 4 = src.limit / 2 ^ 16) := by
  have hrefused : 0xFFFFF < src.limit → (krEncodeSegmentDescriptor src m pDest).2 = m :=
    fun h => congrArg Prod.snd (if_pos h)
  rw [EncodedWell, and_iff_left hrefused]
  refine forall_congr' fun h => ?_
  rw [decode_encoded h hrange, limit_kept_iff]

def kernelCodeSegment : KrGlobalDescriptorTableSegmentDescriptor :=
  ⟨0xFFFFF, 0, 1, 1, 0, 1, 1, 0, 1, 0, 1, 0, 1⟩

theorem encodedWell_iff_kernelCode :
    EncodedWell kernelCodeSegment (fun _ => 0) 0x1000 ↔
      (0xFFFFF ≤ 0xFFFFF → 0xFFFFF / 2 ^ 12 % 2 ^ 4 = 0xFFFFF / 2 ^ 16) := by
  refine encodedWell_iff kernelCodeSegment ?_ (fun _ => 0) 0x1000
  constructor <;> decide

/-- A data segment of 64 KiB is read back with a limit of 1 MiB. -/
theorem limit_lost : ¬ ∀ (src : KrGlobalDescriptorTableSegmentDescriptor), src.InRange →
    ∀ (m : Bytes) (pDest : Nat), EncodedWell src m pDest := by
  intro h
  let src : KrGlobalDescriptorTableSegmentDescriptor :=
    ⟨0x0FFFF, 0, 0, 1, 0, 0, 1, 0, 1, 0, 0, 1, 0⟩
  have hrange : src.InRange := by constructor <;> decide
  have hdecoded := (h src hrange (fun _ => 0) 0).1 (by decide)
  rw [decode_encoded (by decide) hrange] at hdecoded
  exact absurd (congrArg KrGlobalDescriptorTableSegmentDescriptor.limit hdecoded) (by decide)

end Ych.GDT
