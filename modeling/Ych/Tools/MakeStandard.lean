import Ych.Base.Allocations
import Ych.Base.Words

/-! The image tool's standard disk layout: a protective MBR, two GPT headers with their entry
arrays and two partitions, in logical blocks. -/
namespace Ych.Imgtool
open Allocations Words

def NO_PARTITIONS_TO_ALLOCATE : Nat := 128
def MINIMUM_DISK_SIZE_MIB : Int := 128
def EFI_SYSTEM_PART_ADDRESS : Int := 1024 * 1024
def EFI_SYSTEM_PART_SIZE_MIB : Int := 100

def GPT_PARTITION_ENTRY_SIZE : Nat := 16 + 16 + 8 + 8 + 8 + 36 * 2

structure MbrPartitionEntry where
  startLBA : Nat
  size : Nat

structure GptPartitionHeader where
  selfLBA : Nat
  alternateLBA : Nat
  firstUsableLBA : Nat
  lastUsableLBA : Nat
  partitionTableLBA : Nat
  noPartitionEntries : Nat
  bytesPerPartitionEntry : Nat

structure GptPartitionEntry where
  startLBA : Nat
  endLBA : Nat

structure StandardImage where
  blockCount : Nat
  parGPT : MbrPartitionEntry
  partitionTableBlockCount : Nat
  header : GptPartitionHeader
  partEFI : GptPartitionEntry
  partOS : GptPartitionEntry
  alternate : GptPartitionHeader

def standardTables (blockCount partitionTableBlockCount startEFI blocksEFI : Nat) :
    StandardImage :=
  let alternateLBA := sub64 blockCount 1
  let header : GptPartitionHeader :=
    { selfLBA := 1
      alternateLBA := alternateLBA
      firstUsableLBA := wrap64 (2 + partitionTableBlockCount)
      lastUsableLBA := sub64 (sub64 alternateLBA 1) partitionTableBlockCount
      partitionTableLBA := 2
      noPartitionEntries := NO_PARTITIONS_TO_ALLOCATE
      bytesPerPartitionEntry := GPT_PARTITION_ENTRY_SIZE }
  let partEFI : GptPartitionEntry :=
    { startLBA := startEFI, endLBA := sub64 (wrap64 (startEFI + blocksEFI)) 1 }
  { blockCount := blockCount
    parGPT := { startLBA := 1, size := wrap32 (sub64 blockCount 1) }
    partitionTableBlockCount := partitionTableBlockCount
    header := header
    partEFI := partEFI
    partOS := { startLBA := wrap64 (partEFI.endLBA + 1), endLBA := header.lastUsableLBA }
    alternate :=
      { header with
        selfLBA := header.alternateLBA
        alternateLBA := header.selfLBA
        partitionTableLBA := wrap64 (header.lastUsableLBA + 1) } }

/-- What follows the checks, for a block size that is not 0. Sums are taken in `size_t`, the
EFI partition's quotients in `int`. -/
def standardImage (iDiskSize iBlockSize : Int) : StandardImage :=
  let rawDiskSize := wrap64 (toSize iDiskSize * 1024 * 1024)
  standardTables (sub64 (wrap64 (rawDiskSize + toSize iBlockSize)) 1 / toSize iBlockSize)
    (sub64 (wrap64 (NO_PARTITIONS_TO_ALLOCATE * GPT_PARTITION_ENTRY_SIZE + toSize iBlockSize)) 1 /
      toSize iBlockSize)
    (toSize (EFI_SYSTEM_PART_ADDRESS.tdiv iBlockSize))
    (toSize ((EFI_SYSTEM_PART_SIZE_MIB * 1024 * 1024).tdiv iBlockSize))

inductive Outcome where
  | fail (text : String)
  | divisionByZero
  | image (layout : StandardImage)

def routineMakeStandard (iDiskSize iBlockSize : Int) : Outcome :=
  if iDiskSize < MINIMUM_DISK_SIZE_MIB then
    .fail (s!"Disk size must be at least {MINIMUM_DISK_SIZE_MIB} MiB, however {iDiskSize} MiB was " ++
      "provided.\n")
  else if 0 < iBlockSize ∧ iBlockSize.tmod 512 ≠ 0 then
    .fail (s!"Block size must be positive and must be a multiple of 512, the provided value of " ++
      s!"{iBlockSize} is not.\n")
  else if toSize iBlockSize = 0 then .divisionByZero
  else .image (standardImage iDiskSize iBlockSize)

def GptPartitionEntry.extent (p : GptPartitionEntry) : Extent :=
  ⟨p.startLBA, p.endLBA + 1 - p.startLBA⟩

def StandardImage.regions (i : StandardImage) : List Extent :=
  [⟨0, 1⟩, ⟨i.header.selfLBA, 1⟩, ⟨i.header.partitionTableLBA, i.partitionTableBlockCount⟩,
    i.partEFI.extent, i.partOS.extent,
    ⟨i.alternate.partitionTableLBA, i.partitionTableBlockCount⟩, ⟨i.alternate.selfLBA, 1⟩]

structure StandardImage.WellLaid (i : StandardImage) : Prop where
  ordered : i.regions.Pairwise fun x y => x.stop ≤ y.start
  within : ∀ x ∈ i.regions, x.stop ≤ i.blockCount
  nonempty : ∀ p ∈ [i.partEFI, i.partOS], p.startLBA ≤ p.endLBA
  usable : ∀ p ∈ [i.partEFI, i.partOS],
    i.header.firstUsableLBA ≤ p.startLBA ∧ p.endLBA ≤ i.header.lastUsableLBA

variable {disk block : Nat}

def diskBlocks (disk block : Nat) : Nat := (disk * 1024 * 1024 + (block - 1)) / block
def tableBlocks (block : Nat) : Nat := (16384 + (block - 1)) / block
def startEFI (block : Nat) : Nat := 1048576 / block
def blocksEFI (block : Nat) : Nat := 104857600 / block

theorem standardImage_natCast (hdisk : disk < 2 ^ 31) (hpos : 0 < block)
    (hblock : block < 2 ^ 31) :
    standardImage disk block =
      standardTables (diskBlocks disk block) (tableBlocks block) (startEFI block)
        (blocksEFI block) := by
  have hraw : wrap64 (toSize disk * 1024 * 1024) = disk * 1024 * 1024 := by
    rw [toSize_natCast (by omega)]
    exact wrap64_of_lt (by omega)
  have hcount : wrap64 (disk * 1024 * 1024 + (block - 1)) = disk * 1024 * 1024 + (block - 1) :=
    wrap64_of_lt (by omega)
  have htable : wrap64 (NO_PARTITIONS_TO_ALLOCATE * GPT_PARTITION_ENTRY_SIZE + (block - 1)) =
      16384 + (block - 1) := by
    have hbytes : NO_PARTITIONS_TO_ALLOCATE * GPT_PARTITION_ENTRY_SIZE = 16384 := by decide
    rw [hbytes]
    exact wrap64_of_lt (by omega)
  have hquot : ∀ n : Nat, n < 2 ^ 64 → toSize ((n : Int).tdiv block) = n / block := by
    intro n hn
    rw [← Int.ofNat_tdiv]
    exact toSize_natCast ((Nat.div_le_self n block).trans_lt hn)
  have hstart := hquot 1048576 (by decide)
  have hblocks := hquot 104857600 (by decide)
  simp only [standardImage, hraw, toSize_natCast (show block < 2 ^ 64 by omega),
    sub64_wrap64_add _ hpos, hcount, htable]
  rw [diskBlocks, tableBlocks, startEFI, blocksEFI, ← hstart, ← hblocks]
  rfl

theorem two_add_tableBlocks_le (hpos : 0 < block) (h : block ≤ 349525) :
    2 + tableBlocks block ≤ startEFI block := by
  unfold tableBlocks startEFI
  by_cases hsmall : block < 16384
  · have hone : 1 ≤ 16384 / block := (Nat.one_le_div_iff hpos).mpr hsmall.le
    have htable : (16384 + (block - 1)) / block ≤ 16384 / block + 1 := by
      rw [← Nat.add_div_right _ hpos]
      exact Nat.div_le_div_right (by omega)
    have hstart : 64 * (16384 / block) ≤ 1048576 / block :=
      Nat.mul_div_le_mul_div_assoc 64 16384 block
    omega
  · have htable : (16384 + (block - 1)) / block < 2 := (Nat.div_lt_iff_lt_mul hpos).mpr (by omega)
    have hstart : 3 ≤ 1048576 / block := (Nat.le_div_iff_mul_le hpos).mpr (by omega)
    omega

theorem startEFI_le_two (h : 349525 < block) : startEFI block ≤ 2 := by
  have hlt : 1048576 / block < 3 := (Nat.div_lt_iff_lt_mul (by omega)).mpr (by omega)
  unfold startEFI
  omega

theorem tableBlocks_pos (hpos : 0 < block) : 0 < tableBlocks block :=
  Nat.div_pos (by omega) hpos

theorem partitions_le_diskBlocks (hdisk : 128 ≤ disk) :
    startEFI block + blocksEFI block + 27 * startEFI block ≤ diskBlocks disk block := by
  unfold startEFI blocksEFI diskBlocks
  have hefi : 1048576 / block + 104857600 / block ≤ 105906176 / block :=
    Nat.div_add_div_le_add_div
  have hspare : 27 * (1048576 / block) ≤ 28311552 / block :=
    Nat.mul_div_le_mul_div_assoc 27 1048576 block
  have hsum : 105906176 / block + 28311552 / block ≤ 134217728 / block :=
    Nat.div_add_div_le_add_div
  have hcount : 134217728 / block ≤ (disk * 1024 * 1024 + (block - 1)) / block :=
    Nat.div_le_div_right (by omega)
  omega

theorem standardTables_wellLaid {count table start blocks : Nat} (htable : 2 + table ≤ start)
    (hblocks : 0 < blocks) (hcount : start + blocks + table + 2 < count)
    (hlt : count < 2 ^ 64) : (standardTables count table start blocks).WellLaid := by
  have halternate : sub64 count 1 = count - 1 := sub64_of_le (by omega) hlt
  have hbelow : sub64 (count - 1) 1 = count - 2 := sub64_of_le (by omega) (by omega)
  have hlast : sub64 (count - 2) table = count - 2 - table := sub64_of_le (by omega) (by omega)
  have hfirst : wrap64 (2 + table) = 2 + table := wrap64_of_lt (by omega)
  have hend : sub64 (wrap64 (start + blocks)) 1 = start + blocks - 1 := by
    rw [wrap64_of_lt (by omega), sub64_of_le (by omega) (by omega)]
  have hnext : wrap64 (start + blocks - 1 + 1) = start + blocks := by
    rw [wrap64_of_lt (by omega)]
    omega
  have hmirror : wrap64 (count - 2 - table + 1) = count - 1 - table := by
    rw [wrap64_of_lt (by omega)]
    omega
  constructor
  all_goals
    simp only [StandardImage.regions, standardTables, GptPartitionEntry.extent, Extent.stop,
      halternate, hbelow, hlast, hfirst, hend, hnext, hmirror, List.pairwise_cons, List.mem_cons,
      List.not_mem_nil, or_false, forall_eq_or_imp, forall_eq, List.Pairwise.nil,
      IsEmpty.forall_iff, implies_true, and_true]
    omega

/-- A block size that the conversion turns into a number near `2 ^ 64` leaves at most one
block. -/
theorem standardImage_neg (hdisk : disk < 2 ^ 31) (hpos : 0 < block) (hblock : block ≤ 2 ^ 31) :
    (standardImage disk (-block)).blockCount ≤ 1 := by
  have hsize : toSize (-block) = 2 ^ 64 - block := toSize_neg hpos (by omega)
  have hraw : wrap64 (toSize disk * 1024 * 1024) = disk * 1024 * 1024 := by
    rw [toSize_natCast (by omega)]
    exact wrap64_of_lt (by omega)
  have hlt : sub64 (wrap64 (disk * 1024 * 1024 + (2 ^ 64 - block))) 1 / (2 ^ 64 - block) < 2 := by
    refine (Nat.div_lt_iff_lt_mul (by omega)).mpr ?_
    unfold sub64 wrap64
    omega
  simp only [standardImage, standardTables, hsize, hraw]
  omega

theorem routineMakeStandard_accepted {iDiskSize iBlockSize : Int}
    (h : ∀ text, routineMakeStandard iDiskSize iBlockSize ≠ .fail text) :
    128 ≤ iDiskSize ∧
      routineMakeStandard iDiskSize iBlockSize =
        if toSize iBlockSize = 0 then .divisionByZero
        else .image (standardImage iDiskSize iBlockSize) := by
  unfold routineMakeStandard at h ⊢
  by_cases hdisk : iDiskSize < MINIMUM_DISK_SIZE_MIB
  · exact absurd (if_pos hdisk) (h _)
  · rw [if_neg hdisk] at h ⊢
    by_cases hblock : 0 < iBlockSize ∧ iBlockSize.tmod 512 ≠ 0
    · exact absurd (if_pos hblock) (h _)
    · exact ⟨not_lt.mp hdisk, if_neg hblock⟩

theorem standardImage_wellLaid (hdisk : 128 ≤ disk) (hlt : disk < 2 ^ 31) (hpos : 0 < block)
    (hblock : block < 2 ^ 31) :
    (standardImage disk block).WellLaid ↔ block ≤ 349525 := by
  rw [standardImage_natCast hlt hpos hblock]
  have htable := tableBlocks_pos hpos
  have hlt' : diskBlocks disk block < 2 ^ 64 := by
    have := Nat.div_le_self (disk * 1024 * 1024 + (block - 1)) block
    unfold diskBlocks
    omega
  constructor
  · intro h
    by_contra hlarge
    have hstart := startEFI_le_two (Nat.lt_of_not_le hlarge)
    have htable' : tableBlocks block < 2 ^ 63 := by
      have := Nat.div_le_self (16384 + (block - 1)) block
      unfold tableBlocks
      omega
    have husable := (h.usable _ List.mem_cons_self).1
    have hfirst : wrap64 (2 + tableBlocks block) = 2 + tableBlocks block := wrap64_of_lt (by omega)
    simp only [standardTables, hfirst] at husable
    omega
  · intro hle
    have hstart := two_add_tableBlocks_le hpos hle
    have hroom : startEFI block + blocksEFI block + 27 * startEFI block ≤ diskBlocks disk block :=
      partitions_le_diskBlocks hdisk
    have hblocks : 0 < blocksEFI block := Nat.div_pos (by omega) hpos
    exact standardTables_wellLaid hstart hblocks (by omega) hlt'

/-- Of the block sizes the checks let through, exactly the positive ones of which three fit
below the EFI partition give a well laid out disk. -/
theorem routineMakeStandard_wellLaid (iDiskSize iBlockSize : Int) (hdisk : iDiskSize < 2 ^ 31)
    (hlo : -2 ^ 31 ≤ iBlockSize) (hhi : iBlockSize < 2 ^ 31)
    (haccepted : ∀ text, routineMakeStandard iDiskSize iBlockSize ≠ .fail text) :
    (∃ i, routineMakeStandard iDiskSize iBlockSize = .image i ∧ i.WellLaid) ↔
      0 < iBlockSize ∧ iBlockSize ≤ EFI_SYSTEM_PART_ADDRESS / 3 := by
  obtain ⟨hmin, hrun⟩ := routineMakeStandard_accepted haccepted
  obtain ⟨disk, rfl⟩ := Int.eq_ofNat_of_zero_le (show 0 ≤ iDiskSize by omega)
  have hthird : EFI_SYSTEM_PART_ADDRESS / 3 = 349525 := by decide
  rw [hrun, hthird]
  rcases lt_trichotomy iBlockSize 0 with hneg | rfl | hpos
  · obtain ⟨block, hblock⟩ := Int.eq_ofNat_of_zero_le (show 0 ≤ -iBlockSize by omega)
    obtain rfl : iBlockSize = -(block : Int) := by omega
    have hsize : toSize (-(block : Int)) = 2 ^ 64 - block := toSize_neg (by omega) (by omega)
    have hone : (standardImage disk (-block)).blockCount ≤ 1 :=
      standardImage_neg (by omega) (by omega) (by omega)
    refine iff_of_false ?_ (by omega)
    rintro ⟨i, hi, hwell⟩
    rw [if_neg (by omega)] at hi
    cases hi
    -- The primary header in block 1 is outside a disk of at most one block.
    have hheader := hwell.within ⟨1, 1⟩ (List.mem_cons_of_mem _ List.mem_cons_self)
    simp only [Extent.stop] at hheader
    omega
  · refine iff_of_false ?_ (by omega)
    rintro ⟨i, hi, _⟩
    cases hi
  · obtain ⟨block, rfl⟩ := Int.eq_ofNat_of_zero_le hpos.le
    rw [toSize_natCast (by omega), if_neg (by omega)]
    have hwell : (standardImage disk block).WellLaid ↔ block ≤ 349525 :=
      standardImage_wellLaid (by omega) (by omega) (by omega) (by omega)
    constructor
    · rintro ⟨i, hi, h⟩
      cases hi
      have := hwell.mp h
      omega
    · intro h
      exact ⟨_, rfl, hwell.mpr (by omega)⟩

theorem routineMakeStandard_wellLaid_sectors :
    (∃ i, routineMakeStandard 256 512 = .image i ∧ i.WellLaid) ↔
      (0 : Int) < 512 ∧ (512 : Int) ≤ EFI_SYSTEM_PART_ADDRESS / 3 := by
  refine routineMakeStandard_wellLaid 256 512 (by decide) (by decide) (by decide) fun text h => ?_
  rw [routineMakeStandard, if_neg (by decide), if_neg (by decide), if_neg (by decide)] at h
  cases h

/-- The check refuses only positive block sizes, so that 0 reaches the division. -/
theorem routineMakeStandard_zero :
    ¬ ∀ iDiskSize iBlockSize : Int, iDiskSize < 2 ^ 31 → -2 ^ 31 ≤ iBlockSize →
      iBlockSize < 2 ^ 31 →
      (∀ text, routineMakeStandard iDiskSize iBlockSize ≠ .fail text) →
      ∃ i, routineMakeStandard iDiskSize iBlockSize = .image i ∧ i.WellLaid := by
  intro h
  have hrun : routineMakeStandard 128 0 = .divisionByZero := by
    rw [routineMakeStandard, if_neg (by decide), if_neg (by decide), if_pos (by decide)]
  obtain ⟨i, hi, _⟩ := h 128 0 (by decide) (by decide) (by decide) fun text htext => by
    rw [hrun] at htext
    cases htext
  rw [hrun] at hi
  cases hi

end Ych.Imgtool
