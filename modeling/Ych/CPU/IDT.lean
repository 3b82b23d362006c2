import Ych.Base.BitFields
import Ych.Base.PackedTables
import Ych.CPU.ISRs

/-! Interrupt descriptors as they are written, and as the processor reads them. -/
namespace Ych.CPU
open Bitmap ByteMemory PackedTables

def KR_INTERRUPT_DESCRIPTOR_ENTRY_SIZE : Nat := 16

def gateAttributes (gateType dpl : Byte) : Nat :=
  1 <<< 7 ||| (dpl.toNat &&& 0x03) <<< 5 ||| 0 <<< 4 ||| (gateType.toNat &&& 0xF)

/-- `OffsetLow`, `OffsetMid`, `OffsetHigh`, `SegmentSelector`, `IST`, `Attributes` and `Reserved`,
in the order they are assigned. -/
def descriptorFields (offset : BitVec 64) (ssl : BitVec 16) (ist gateType dpl : Byte) :
    List FieldStore :=
  [⟨0, 2, (offset &&& 0xFFFF).toNat⟩,
    ⟨6, 2, ((offset >>> 16) &&& 0xFFFF).toNat⟩,
    ⟨8, 4, ((offset >>> 32) &&& 0xFFFFFFFF).toNat⟩,
    ⟨2, 2, ssl.toNat⟩,
    ⟨4, 1, (ist &&& 0x7).toNat⟩,
    ⟨5, 1, gateAttributes gateType dpl⟩,
    ⟨12, 4, 0⟩]

def krEncodeInterruptDescriptor (m : Bytes) (pDest : Nat) (offset : BitVec 64) (ssl : BitVec 16)
    (ist gateType dpl : Byte) : Bytes :=
  storeFields m pDest (descriptorFields offset ssl ist gateType dpl)

def gateAt (m : Bytes) (p : Nat) : Gate :=
  let attributes := load m (p + 5) 1
  { offset := BitVec.ofNat 64
      (load m p 2 + 2 ^ 16 * load m (p + 6) 2 + 2 ^ 32 * load m (p + 8) 4)
    selector := BitVec.ofNat 16 (load m (p + 2) 2)
    ist := load m (p + 4) 1 % 2 ^ 3
    gateType := BitFields.bits attributes 0 4
    dpl := BitFields.bits attributes 5 2
    present := BitFields.bits attributes 7 1 = 1 }

variable {m m' : Bytes} {p a b : Nat} {offset : BitVec 64} {ssl : BitVec 16}
  {ist gateType dpl : Byte}

theorem descriptorFields_apart :
    (descriptorFields offset ssl ist gateType dpl).Pairwise FieldStore.Apart := by
  simp [descriptorFields, FieldStore.Apart]

theorem descriptorFields_within {f : FieldStore}
    (hf : f ∈ descriptorFields offset ssl ist gateType dpl) : f.offset + f.size ≤ 16 := by
  simp only [descriptorFields, List.mem_cons, List.not_mem_nil, or_false] at hf
  rcases hf with rfl | rfl | rfl | rfl | rfl | rfl | rfl <;> simp

theorem sameOn_encode (h : b ≤ p ∨ p + 16 ≤ a) :
    SameOn m (krEncodeInterruptDescriptor m p offset ssl ist gateType dpl) a b := by
  refine sameOn_storeFields fun f hf => ?_
  have hwithin := descriptorFields_within hf
  omega

theorem gateAt_congr (h : SameOn m m' p (p + 16)) : gateAt m' p = gateAt m p := by
  have hload : ∀ k n, k + n ≤ 16 → load m' (p + k) n = load m (p + k) n := fun k n hk =>
    load_congr (h.mono (by omega) (by omega))
  have hfirst : load m' p 2 = load m p 2 := hload 0 2 (by omega)
  simp only [gateAt, hfirst, hload 2 2 (by omega), hload 4 1 (by omega), hload 5 1 (by omega),
    hload 6 2 (by omega), hload 8 4 (by omega)]

theorem gateAttributes_eq (gateType dpl : Byte) : gateAttributes gateType dpl =
      BitFields.pack [(4, gateType.toNat), (1, 0), (2, dpl.toNat), (1, 1)] := by
  have hthree : dpl.toNat &&& 0x03 = dpl.toNat % 2 ^ 2 := Nat.and_two_pow_sub_one_eq_mod _ 2
  have hfour : gateType.toNat &&& 0xF = (gateType.toNat % 2 ^ 4) <<< 0 := by
    rw [Nat.shiftLeft_zero]
    exact Nat.and_two_pow_sub_one_eq_mod _ 4
  have hzero : (0 : Nat) <<< 4 = (0 % 2 ^ 1) <<< 4 := rfl
  rw [gateAttributes, hthree, hfour, hzero, BitFields.shiftLeft_or_field 1 (by omega),
    BitFields.shiftLeft_or_field _ (by omega), BitFields.shiftLeft_or_field _ (by omega)]
  simp [BitFields.pack]

theorem offset_parts (offset : BitVec 64) :
    (offset &&& 0xFFFF).toNat + 2 ^ 16 * ((offset >>> 16) &&& 0xFFFF).toNat +
      2 ^ 32 * ((offset >>> 32) &&& 0xFFFFFFFF).toNat = offset.toNat := by
  have hlow : (offset &&& 0xFFFF).toNat = offset.toNat % 2 ^ 16 :=
    Nat.and_two_pow_sub_one_eq_mod _ 16
  have hmid : ((offset >>> 16) &&& 0xFFFF).toNat = offset.toNat >>> 16 % 2 ^ 16 :=
    Nat.and_two_pow_sub_one_eq_mod _ 16
  have hhigh : ((offset >>> 32) &&& 0xFFFFFFFF).toNat = offset.toNat >>> 32 % 2 ^ 32 :=
    Nat.and_two_pow_sub_one_eq_mod _ 32
  have hlt := offset.isLt
  rw [hlow, hmid, hhigh, Nat.shiftRight_eq_div_pow, Nat.shiftRight_eq_div_pow]
  omega

/-- The processor finds what the descriptor was made of; of the last three arguments it takes as
many bits as there is room for. -/
theorem gateAt_encode :
    gateAt (krEncodeInterruptDescriptor m p offset ssl ist gateType dpl) p =
      { offset := offset, selector := ssl, ist := ist.toNat % 2 ^ 3
        gateType := gateType.toNat % 2 ^ 4, dpl := dpl.toNat % 2 ^ 2, present := true } := by
  have hread : ∀ f ∈ descriptorFields offset ssl ist gateType dpl,
      load (krEncodeInterruptDescriptor m p offset ssl ist gateType dpl) (p + f.offset) f.size =
        f.value % 256 ^ f.size := fun f hf => load_storeFields descriptorFields_apart hf
  simp only [descriptorFields, List.forall_mem_cons, Nat.add_zero] at hread
  obtain ⟨hlow, hmid, hhigh, hssl, hist, hattributes, -⟩ := hread
  have hoffset := offset_parts offset
  have hthree : (ist &&& 0x7).toNat = ist.toNat % 2 ^ 3 := Nat.and_two_pow_sub_one_eq_mod _ 3
  have hword : ∀ x : BitVec 64, (x &&& 0xFFFF).toNat < 256 ^ 2 := fun x => by
    have heq : (x &&& 0xFFFF).toNat = x.toNat % 2 ^ 16 := Nat.and_two_pow_sub_one_eq_mod _ 16
    omega
  have hdword : ∀ x : BitVec 64, (x &&& 0xFFFFFFFF).toNat < 256 ^ 4 := fun x => by
    have heq : (x &&& 0xFFFFFFFF).toNat = x.toNat % 2 ^ 32 :=
      Nat.and_two_pow_sub_one_eq_mod _ 32
    omega
  rw [Nat.mod_eq_of_lt (hword _)] at hlow hmid
  rw [Nat.mod_eq_of_lt (hdword _)] at hhigh
  rw [Nat.mod_eq_of_lt (by omega)] at hssl hist
  have hpack : BitFields.pack [(4, gateType.toNat), (1, 0), (2, dpl.toNat), (1, 1)] < 256 ^ 1 := by
    simp only [BitFields.pack]
    omega
  rw [gateAttributes_eq, Nat.mod_eq_of_lt hpack] at hattributes
  simp only [gateAt, hlow, hmid, hhigh, hssl, hist, hattributes, hoffset, hthree,
    BitVec.ofNat_toNat, BitVec.setWidth_eq, Nat.mod_mod]
  simp [BitFields.bits_pack_tail]

end Ych.CPU
