import Ych.Base.Bitmap
import Ych.Base.ReflectedCrc
import Ych.Base.Words

/-! The image tool's checksums and disk addresses. -/
namespace Ych.Imgtool
open Bitmap ReflectedCrc Words

def tableRounds : Nat → BitVec 32 → BitVec 32
  | 0, crc => crc
  | rounds + 1, crc =>
    tableRounds rounds (if crc &&& 1 ≠ 0 then (crc >>> 1) ^^^ 0xEDB88320 else crc >>> 1)

def initTableCRC32 (table : Nat → BitVec 32) : Nat → BitVec 32 :=
  (List.range 256).foldl
    (fun table i => Function.update table i (tableRounds 8 (BitVec.ofNat 32 i))) table

def checksumByte (table : Nat → BitVec 32) (crc : BitVec 32) (b : Byte) : BitVec 32 :=
  let index : Byte := ((crc ^^^ b.setWidth 32) &&& 0xFF).setWidth 8
  (crc >>> 8) ^^^ table index.toNat

def checksumCRC32 (table : Nat → BitVec 32) (data : List Byte) : BitVec 32 :=
  data.foldl (checksumByte table) 0xFFFFFFFF ^^^ 0xFFFFFFFF

def messageBits (data : List Byte) : List Bool := data.flatMap (lowBits 8)

section Checksum
variable {table : Nat → BitVec 32}

theorem tableRounds_eq (rounds : Nat) (crc : BitVec 32) :
    tableRounds rounds crc = (shift 0xEDB88320)^[rounds] crc := by
  induction rounds generalizing crc with
  | zero => rfl
  | succ rounds ih =>
    have hstep : (if crc &&& 1 ≠ 0 then (crc >>> 1) ^^^ 0xEDB88320 else crc >>> 1) =
        shift 0xEDB88320 crc := by
      rw [shift]
      refine if_congr ?_ rfl rfl
      rw [show crc &&& 1 = _ from BitVec.and_one_eq_setWidth_ofBool_getLsbD]
      cases crc.getLsbD 0 <;> decide
    rw [tableRounds, ih, hstep, Function.iterate_succ_apply]

theorem foldl_update {α : Type*} (f : Nat → α) (table : Nat → α) (n i : Nat) :
    (List.range n).foldl (fun table i => Function.update table i (f i)) table i =
      if i < n then f i else table i := by
  induction n with
  | zero => rfl
  | succ n ih =>
    rw [List.range_succ, List.foldl_append, List.foldl_cons, List.foldl_nil,
      Function.update_apply, ih]
    by_cases h : i = n
    · rw [if_pos h, if_pos (by omega), h]
    · rw [if_neg h]
      exact if_congr (by omega) rfl rfl

theorem initTableCRC32_apply (table : Nat → BitVec 32) (index : Byte) :
    initTableCRC32 table index.toNat = (shift 0xEDB88320)^[8] (index.setWidth 32) := by
  have hindex : BitVec.ofNat 32 index.toNat = index.setWidth 32 :=
    BitVec.ofNat_toNat 32 index
  rw [initTableCRC32, foldl_update, if_pos index.isLt, tableRounds_eq, hindex]

theorem checksumByte_eq (crc : BitVec 32) (b : Byte) :
    checksumByte (initTableCRC32 table) crc b = feed 0xEDB88320 crc (lowBits 8 b) := by
  have hindex : ((crc ^^^ b.setWidth 32) &&& 0xFF).setWidth 8 =
      (crc ^^^ b.setWidth 32).setWidth 8 := by
    refine BitVec.eq_of_getLsbD_eq fun i hi => ?_
    have hones : (0xFF : BitVec 32) = BitVec.ofNat 32 (2 ^ 8 - 1) := by decide
    have hmask : (0xFF : BitVec 32).getLsbD i = true := by
      rw [hones, BitVec.getLsbD_ofNat, Nat.testBit_two_pow_sub_one, decide_eq_true hi,
        decide_eq_true (show i < 32 by omega), Bool.true_and]
    rw [BitVec.getLsbD_setWidth, BitVec.getLsbD_setWidth, BitVec.getLsbD_and, hmask,
      Bool.and_true]
  have hmoved : (crc ^^^ b.setWidth 32) >>> 8 = crc >>> 8 := by
    refine BitVec.eq_of_getLsbD_eq fun i _ => ?_
    simp
  have hbits : ∀ i, 8 ≤ i → (b.setWidth 32).getLsbD i = false := by
    intro i hi
    simp [BitVec.getLsbD_of_ge b i hi]
  rw [← lowBits_setWidth (show 8 ≤ 32 by decide) b, feed_lowBits 8 crc _ hbits,
    iterate_shift_eq 8 (crc ^^^ b.setWidth 32), hmoved, checksumByte, hindex,
    initTableCRC32_apply, BitVec.xor_comm]

theorem foldl_checksumByte (crc : BitVec 32) (data : List Byte) :
    data.foldl (checksumByte (initTableCRC32 table)) crc =
      feed 0xEDB88320 crc (messageBits data) := by
  induction data generalizing crc with
  | nil => rfl
  | cons b data ih =>
    have hbits : messageBits (b :: data) = lowBits 8 b ++ messageBits data := List.flatMap_cons
    rw [List.foldl_cons, ih, checksumByte_eq, hbits, feed, feed, feed, List.foldl_append]

/-- The checksum by the table is the one by shifting the data through bit by bit, whatever the
table held before it was set up. -/
theorem checksumCRC32_eq (table : Nat → BitVec 32) (data : List Byte) :
    checksumCRC32 (initTableCRC32 table) data =
      crc 0xEDB88320 0xFFFFFFFF 0xFFFFFFFF (messageBits data) := by
  rw [checksumCRC32, crc, foldl_checksumByte]

/-- The check value of the CRC: that of the digits from 1 to 9. -/
example : crc 0xEDB88320 0xFFFFFFFF 0xFFFFFFFF
    (messageBits [0x31, 0x32, 0x33, 0x34, 0x35, 0x36, 0x37, 0x38, 0x39]) =
      (0xCBF43926 : BitVec 32) := by decide +kernel

end Checksum

/-! ### Addresses by cylinder, head and sector -/

structure CHSBytes where
  byte0 : Nat
  byte1 : Nat
  byte2 : Nat
  deriving DecidableEq

def imgtool_LBAToCHS (lba : Nat) : CHSBytes :=
  let heads := 255
  let sectors := 63
  let c := wrap32 (lba / (heads * sectors))
  let temp := wrap32 (lba % (heads * sectors))
  let h := temp / sectors
  let s := temp % sectors + 1
  let (c, h, s) := if 1023 < c then (1023, 254, 63) else (c, h, s)
  { byte0 := h % 2 ^ 8
    byte1 := ((s &&& 0x3F) ||| ((c >>> 2) &&& 0xC0)) % 2 ^ 8
    byte2 := (c &&& 0xFF) % 2 ^ 8 }

structure CHS where
  cylinder : Nat
  head : Nat
  sector : Nat
  deriving DecidableEq

def decodeCHS (chs : CHSBytes) : CHS where
  cylinder := (chs.byte1 &&& 0xC0) <<< 2 ||| chs.byte2
  head := chs.byte0
  sector := chs.byte1 &&& 0x3F

def lastCHS : CHS := ⟨1023, 254, 63⟩

/-- The address counts up to the block, from the sector 1 on, or is the last one for a block behind
all that have one. -/
structure Locates (chs : CHS) (lba : Nat) : Prop where
  counted : lba < 1024 * 255 * 63 →
    1 ≤ chs.sector ∧ (chs.cylinder * 255 + chs.head) * 63 + (chs.sector - 1) = lba
  saturated : 1024 * 255 * 63 ≤ lba → chs = lastCHS

section Addresses
variable {c h s lba : Nat}

theorem and_sectorBits (x : Nat) : x &&& 0x3F = x % 2 ^ 6 := Nat.and_two_pow_sub_one_eq_mod x 6

theorem and_cylinderBits (x : Nat) : x &&& 0xC0 = (x / 2 ^ 6 % 2 ^ 2) <<< 6 := by
  have hmask : 0xC0 = 3 <<< 6 := by decide
  have hhigh : x / 2 ^ 6 % 2 ^ 2 = (x >>> 6) &&& 3 := by
    rw [Nat.shiftRight_eq_div_pow]
    exact (Nat.and_two_pow_sub_one_eq_mod _ 2).symm
  rw [hmask, hhigh]
  refine Nat.eq_of_testBit_eq fun i => ?_
  simp only [Nat.testBit_and, Nat.testBit_shiftLeft, Nat.testBit_shiftRight]
  by_cases hi : 6 ≤ i
  · simp [hi, Nat.add_sub_cancel' hi]
  · simp [hi]

theorem byte1_eq (c s : Nat) : ((s &&& 0x3F) ||| ((c >>> 2) &&& 0xC0)) % 2 ^ 8 =
    c / 2 ^ 8 % 2 ^ 2 * 2 ^ 6 + s % 2 ^ 6 := by
  have hlt : s % 2 ^ 6 < 2 ^ 6 := Nat.mod_lt _ (by decide)
  rw [and_sectorBits, and_cylinderBits, Nat.or_comm, ← Nat.shiftLeft_add_eq_or_of_lt hlt,
    Nat.shiftLeft_eq, Nat.shiftRight_eq_div_pow, Nat.div_div_eq_div_mul]
  omega

theorem decodeCHS_bytes (hc : c < 1024) (hh : h < 256) (hs : s < 64) :
    decodeCHS ⟨h % 2 ^ 8, ((s &&& 0x3F) ||| ((c >>> 2) &&& 0xC0)) % 2 ^ 8, (c &&& 0xFF) % 2 ^ 8⟩ =
      ⟨c, h, s⟩ := by
  have hlow : c &&& 0xFF = c % 2 ^ 8 := Nat.and_two_pow_sub_one_eq_mod c 8
  have hlt : c % 2 ^ 8 % 2 ^ 8 < 2 ^ 8 := Nat.mod_lt _ (by decide)
  rw [decodeCHS, byte1_eq, hlow, and_sectorBits, and_cylinderBits, ← Nat.shiftLeft_add,
    ← Nat.shiftLeft_add_eq_or_of_lt hlt, Nat.shiftLeft_eq]
  simp only [CHS.mk.injEq]
  omega

theorem imgtool_LBAToCHS_low (h : lba < 1024 * 255 * 63) :
    decodeCHS (imgtool_LBAToCHS lba) =
      ⟨lba / (255 * 63), lba % (255 * 63) / 63, lba % (255 * 63) % 63 + 1⟩ := by
  have hc : lba / (255 * 63) < 1024 := (Nat.div_lt_iff_lt_mul (by decide)).mpr (by omega)
  have hquotient : wrap32 (lba / (255 * 63)) = lba / (255 * 63) := wrap32_of_lt (by omega)
  have hrest : wrap32 (lba % (255 * 63)) = lba % (255 * 63) := wrap32_of_lt (by omega)
  simp only [imgtool_LBAToCHS, hquotient, hrest, if_neg (show ¬ 1023 < lba / (255 * 63) by omega)]
  exact decodeCHS_bytes hc (by omega) (by omega)

theorem imgtool_LBAToCHS_saturated (h : 1024 * 255 * 63 ≤ lba) (hlba : lba < 2 ^ 32 * (255 * 63)) :
    imgtool_LBAToCHS lba = ⟨254, 0xFF, 0xFF⟩ := by
  have hc : 1023 < lba / (255 * 63) := (Nat.le_div_iff_mul_le (by decide)).mpr (by omega)
  have hquotient : wrap32 (lba / (255 * 63)) = lba / (255 * 63) :=
    wrap32_of_lt ((Nat.div_lt_iff_lt_mul (by decide)).mpr hlba)
  simp only [imgtool_LBAToCHS, hquotient, if_pos hc]
  decide

theorem imgtool_LBAToCHS_high (h : 1024 * 255 * 63 ≤ lba) (hlba : lba < 2 ^ 32 * (255 * 63)) :
    decodeCHS (imgtool_LBAToCHS lba) = lastCHS := by
  rw [imgtool_LBAToCHS_saturated h hlba]
  decide

/-- Block addresses of 32 bits: the decoded address is that of the block, or the last one. -/
theorem decodeCHS_imgtool_LBAToCHS (lba : Nat) (hlba : lba < 2 ^ 32) :
    Locates (decodeCHS (imgtool_LBAToCHS lba)) lba := by
  refine ⟨fun h => ?_, fun h => imgtool_LBAToCHS_high h (by omega)⟩
  rw [imgtool_LBAToCHS_low h]
  exact ⟨Nat.succ_pos _, by simp only; omega⟩

theorem decodeCHS_imgtool_LBAToCHS_last :
    Locates (decodeCHS (imgtool_LBAToCHS 0xFB03FF)) 0xFB03FF :=
  decodeCHS_imgtool_LBAToCHS 0xFB03FF (by decide)

end Addresses

end Ych.Imgtool
