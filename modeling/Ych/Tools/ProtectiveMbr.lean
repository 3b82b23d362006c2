import Ych.Tools.Imgtool
import Ych.Tools.MakeStandard

/-! The protective MBR of the standard disk: its one partition entry, for the whole disk. -/
namespace Ych.Imgtool
open Words

def MBR_BOOT_INDICATOR_NO : Nat := 0x00
def MBR_SYSTEM_ID_GPT_PROTECTIVE : Nat := 0xEE

structure MbrEntry where
  bootIndicator : Nat
  startCHS : CHSBytes
  systemID : Nat
  endCHS : CHSBytes
  startLBA : Nat
  size : Nat

/-- The entry `parGPT` as it is written; the size is cut off to 32 bits before it is turned into
an address. -/
def protectiveMbr (blockCount : Nat) : MbrEntry :=
  let startLBA := 1
  let size := wrap32 (sub64 blockCount 1)
  { bootIndicator := MBR_BOOT_INDICATOR_NO
    startCHS := imgtool_LBAToCHS startLBA
    systemID := MBR_SYSTEM_ID_GPT_PROTECTIVE
    endCHS := imgtool_LBAToCHS size
    startLBA := startLBA
    size := size }

/-- The entry covers all blocks of the disk but the first, as far as its fields can tell. -/
structure MbrEntry.Describes (e : MbrEntry) (blocks : Nat) : Prop where
  size : e.size = if blocks - 1 < 2 ^ 32 then blocks - 1 else 0xFFFFFFFF
  startLBA : e.startLBA = 1
  endCHS : e.endCHS = imgtool_LBAToCHS (blocks - 1)

variable {blocks : Nat}

theorem protectiveMbr_parGPT (count table start efi : Nat) :
    let i := standardTables count table start efi
    (protectiveMbr i.blockCount).startLBA = i.parGPT.startLBA ∧
      (protectiveMbr i.blockCount).size = i.parGPT.size :=
  ⟨rfl, rfl⟩

theorem protectiveMbr_describes_of_lt (hpos : 0 < blocks) (hfits : blocks - 1 < 2 ^ 32) :
    (protectiveMbr blocks).Describes blocks := by
  have hsize : wrap32 (sub64 blocks 1) = blocks - 1 := by
    rw [sub64_of_le hpos (by omega), wrap32_of_lt hfits]
  constructor
  · rw [if_pos hfits]
    exact hsize
  · rfl
  · exact congrArg imgtool_LBAToCHS hsize

/-- Of more blocks, the size is right only if the cut off number happens to be the largest one. -/
theorem protectiveMbr_describes_of_ge (hlt : blocks < 2 ^ 44) (hlarge : 2 ^ 32 ≤ blocks - 1) :
    (protectiveMbr blocks).Describes blocks ↔ blocks % 2 ^ 32 = 0 := by
  have hcount : sub64 blocks 1 = blocks - 1 := sub64_of_le (by omega) (by omega)
  constructor
  · intro h
    have hsize := h.size
    rw [if_neg (Nat.not_lt.mpr hlarge), protectiveMbr, hcount] at hsize
    simp only [wrap32] at hsize
    omega
  · intro h
    have hsize : wrap32 (sub64 blocks 1) = 0xFFFFFFFF := by
      rw [hcount]
      unfold wrap32
      omega
    constructor
    · rw [if_neg (Nat.not_lt.mpr hlarge)]
      exact hsize
    · rfl
    · have hlast := imgtool_LBAToCHS_saturated (show 1024 * 255 * 63 ≤ blocks - 1 by omega)
        (by omega)
      have hmax : imgtool_LBAToCHS 0xFFFFFFFF = ⟨254, 0xFF, 0xFF⟩ :=
        imgtool_LBAToCHS_saturated (by decide) (by decide)
      rw [hlast, protectiveMbr, hsize, hmax]

theorem protectiveMbr_describes_iff (hpos : 0 < blocks) (hlt : blocks < 2 ^ 44) :
    (protectiveMbr blocks).Describes blocks ↔ blocks ≤ 2 ^ 32 ∨ blocks % 2 ^ 32 = 0 := by
  by_cases hfits : blocks - 1 < 2 ^ 32
  · exact iff_of_true (protectiveMbr_describes_of_lt hpos hfits) (.inl (by omega))
  · rw [protectiveMbr_describes_of_ge hlt (Nat.le_of_not_lt hfits)]
    exact (or_iff_right (by omega)).symm

theorem routineMakeStandard_sectors {iDiskSize iBlockSize : Int} {i : StandardImage}
    (hpos : 0 < iBlockSize) (h : routineMakeStandard iDiskSize iBlockSize = .image i) :
    512 ≤ iBlockSize := by
  have hmultiple : iBlockSize.tmod 512 = 0 := by
    by_contra hrest
    rw [routineMakeStandard] at h
    split at h
    · cases h
    · rw [if_pos ⟨hpos, hrest⟩] at h
      cases h
  rw [Int.tmod_eq_emod_of_nonneg hpos.le] at hmultiple
  omega

theorem routineMakeStandard_blockCount {iDiskSize iBlockSize : Int} {i : StandardImage}
    (hdisk : iDiskSize < 2 ^ 31) (hblock : iBlockSize < 2 ^ 31) (hpos : 0 < iBlockSize)
    (h : routineMakeStandard iDiskSize iBlockSize = .image i) :
    (i.blockCount : Int) = (iDiskSize * 1024 * 1024 + iBlockSize - 1) / iBlockSize ∧
      0 < i.blockCount ∧ i.blockCount < 2 ^ 44 := by
  have hsectors := routineMakeStandard_sectors hpos h
  obtain ⟨hmin, hrun⟩ := routineMakeStandard_accepted fun text htext => by
    rw [h] at htext
    cases htext
  obtain ⟨disk, rfl⟩ := Int.eq_ofNat_of_zero_le (show 0 ≤ iDiskSize by omega)
  obtain ⟨block, rfl⟩ := Int.eq_ofNat_of_zero_le hpos.le
  rw [h, toSize_natCast (by omega), if_neg (by omega),
    standardImage_natCast (by omega) (by omega) (by omega)] at hrun
  obtain rfl := Outcome.image.inj hrun
  have hsum : (disk : Int) * 1024 * 1024 + block - 1 =
      ((disk * 1024 * 1024 + (block - 1) : Nat) : Int) := by omega
  refine ⟨?_, ?_, ?_⟩
  · rw [hsum, ← Int.natCast_div]
    rfl
  · exact Nat.div_pos (by omega) (by omega)
  · exact (Nat.div_lt_iff_lt_mul (by omega)).mpr (by omega)

/-- The protective MBR of an accepted disk describes it exactly if the disk has at most `2 ^ 32`
blocks or a multiple of that. -/
theorem routineMakeStandard_describes (iDiskSize iBlockSize : Int) (i : StandardImage)
    (hdisk : iDiskSize < 2 ^ 31) (hblock : iBlockSize < 2 ^ 31) (hpos : 0 < iBlockSize)
    (h : routineMakeStandard iDiskSize iBlockSize = .image i) :
    (protectiveMbr i.blockCount).Describes i.blockCount ↔
      (iDiskSize * 1024 * 1024 + iBlockSize - 1) / iBlockSize ≤ 2 ^ 32 ∨
        (iDiskSize * 1024 * 1024 + iBlockSize - 1) / iBlockSize % 2 ^ 32 = 0 := by
  obtain ⟨hcount, hblocks, hlt⟩ := routineMakeStandard_blockCount hdisk hblock hpos h
  rw [protectiveMbr_describes_iff hblocks hlt, ← hcount]
  omega

theorem routineMakeStandard_describes_sectors :
    (protectiveMbr (standardImage 256 512).blockCount).Describes
        (standardImage 256 512).blockCount ↔
      ((256 : Int) * 1024 * 1024 + 512 - 1) / 512 ≤ 2 ^ 32 ∨
        ((256 : Int) * 1024 * 1024 + 512 - 1) / 512 % 2 ^ 32 = 0 := by
  refine routineMakeStandard_describes 256 512 _ (by decide) (by decide) (by decide) ?_
  rw [routineMakeStandard, if_neg (by decide), if_neg (by decide), if_neg (by decide)]

/-- A disk of 2 TiB and 1 MiB: its size in the entry is 2047 blocks. -/
theorem protectiveMbr_truncated :
    ¬ ∀ (iDiskSize iBlockSize : Int) (i : StandardImage), iDiskSize < 2 ^ 31 →
      iBlockSize < 2 ^ 31 → 0 < iBlockSize →
      routineMakeStandard iDiskSize iBlockSize = .image i →
      (protectiveMbr i.blockCount).Describes i.blockCount := by
  intro h
  have hrun : routineMakeStandard 2097153 512 = .image (standardImage 2097153 512) := by
    rw [routineMakeStandard, if_neg (by decide), if_neg (by decide), if_neg (by decide)]
  have hdescribes := h 2097153 512 _ (by decide) (by decide) (by decide) hrun
  have hcount : (standardImage 2097153 512).blockCount = 4294969344 := by decide
  rw [hcount] at hdescribes
  exact absurd hdescribes.size (by decide)

end Ych.Imgtool
