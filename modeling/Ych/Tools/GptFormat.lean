import Ych.Base.ByteFiles
import Ych.Base.PackedTables
import Ych.Tools.MakeStandardSteps

/-! The buffers the standard disk is written from, and a reader of GUID partition tables that finds
the same values in a file that holds them. -/
namespace Ych.Imgtool
open Bitmap ByteMemory ByteFiles PackedTables ReflectedCrc Words

def littleEndian : List Nat → Nat
  | [] => 0
  | b :: bytes => b % 256 + 256 * littleEndian bytes

def GPT_PARTITION_HEADER_SIZE : Nat := 92
def GPT_INITIAL_REVISION : Nat := 0x00010000
def GPT_ATTRIBUTE_REQUIRED : Nat := 1 <<< 0
def GPT_PARTITION_NAME_CHAR_COUNT : Nat := 36

def GPT_PARTITION_HEADER_SIGNATURE : Nat :=
  littleEndian [0x45, 0x46, 0x49, 0x20, 0x50, 0x41, 0x52, 0x54]

def GPT_EFI_SYSTEM_PARTITION_UUID : Nat :=
  littleEndian [0x28, 0x73, 0x2A, 0xC1, 0x1F, 0xF8, 0xD2, 0x11, 0xBA, 0x4B, 0x00, 0xA0, 0xC9, 0x3E,
    0xC9, 0x3B]

def GPT_MICROSOFT_BASIC_DATA : Nat :=
  littleEndian [0xA2, 0xA0, 0xD0, 0xEB, 0xE5, 0xB9, 0x33, 0x44, 0x87, 0xC0, 0x68, 0xB6, 0xB7, 0x26,
    0x99, 0xC7]

/-- The characters up to the terminator, at most 36 of them, two bytes each. -/
def imgtool_WriteASCIIToUNICODE16LE (pSrc : List Nat) : List Nat :=
  let written := (pSrc.takeWhile (· ≠ 0)).take GPT_PARTITION_NAME_CHAR_COUNT
  written.flatMap (fun c => [c, 0x00]) ++
    List.replicate ((GPT_PARTITION_NAME_CHAR_COUNT - written.length) * 2) 0x00

def partitionName (text : String) : Nat :=
  littleEndian (imgtool_WriteASCIIToUNICODE16LE (text.toList.map Char.toNat))

structure GptEntry where
  partitionTypeGUID : Nat
  partitionGUID : Nat
  startLBA : Nat
  endLBA : Nat
  attributes : Nat
  name : Nat
  deriving DecidableEq

def unusedEntry : GptEntry := ⟨0, 0, 0, 0, 0, 0⟩

/-- What the routine does not determine: the GUIDs generated, the bytes of its buffers and of the
checksum table before they are set. -/
structure Surroundings where
  diskGUID : BitVec 128
  guidEFI : BitVec 128
  guidOS : BitVec 128
  junk : Bytes
  tableCRC32 : Nat → BitVec 32

variable (w : Surroundings) (i : StandardImage)

def checksum (data : List Byte) : Nat :=
  (checksumCRC32 (initTableCRC32 w.tableCRC32) data).toNat

def entryEFI : GptEntry :=
  { partitionTypeGUID := GPT_EFI_SYSTEM_PARTITION_UUID
    partitionGUID := w.guidEFI.toNat
    startLBA := i.partEFI.startLBA
    endLBA := i.partEFI.endLBA
    attributes := GPT_ATTRIBUTE_REQUIRED
    name := partitionName "EFI System Partition" }

def entryOS : GptEntry :=
  { partitionTypeGUID := GPT_MICROSOFT_BASIC_DATA
    partitionGUID := w.guidOS.toNat
    startLBA := i.partOS.startLBA
    endLBA := i.partOS.endLBA
    attributes := GPT_ATTRIBUTE_REQUIRED
    name := partitionName "Ych Operating System" }

def entryFields (e : GptEntry) : List FieldStore :=
  [⟨0, 16, e.partitionTypeGUID⟩, ⟨16, 16, e.partitionGUID⟩, ⟨32, 8, e.startLBA⟩, ⟨40, 8, e.endLBA⟩,
    ⟨48, 8, e.attributes⟩, ⟨56, 72, e.name⟩]

def ENTRY_ARRAY_SIZE : Nat := NO_PARTITIONS_TO_ALLOCATE * GPT_PARTITION_ENTRY_SIZE
def ENTRIES_SIZE : Nat := 2 * GPT_PARTITION_ENTRY_SIZE

def pPartitionEntryArray : Bytes :=
  fill (storeFields (storeFields w.junk 0 (entryFields (entryEFI w i))) GPT_PARTITION_ENTRY_SIZE
    (entryFields (entryOS w i))) ENTRIES_SIZE (ENTRY_ARRAY_SIZE - ENTRIES_SIZE) 0

def headerFields (h : GptPartitionHeader) : List FieldStore :=
  [⟨0, 8, GPT_PARTITION_HEADER_SIGNATURE⟩, ⟨8, 4, GPT_INITIAL_REVISION⟩,
    ⟨12, 4, GPT_PARTITION_HEADER_SIZE⟩, ⟨16, 4, 0⟩, ⟨20, 4, 0⟩, ⟨24, 8, h.selfLBA⟩,
    ⟨32, 8, h.alternateLBA⟩, ⟨40, 8, h.firstUsableLBA⟩, ⟨48, 8, h.lastUsableLBA⟩,
    ⟨56, 16, w.diskGUID.toNat⟩, ⟨72, 8, h.partitionTableLBA⟩, ⟨80, 4, h.noPartitionEntries⟩,
    ⟨84, 4, h.bytesPerPartitionEntry⟩,
    ⟨88, 4, checksum w (slice (pPartitionEntryArray w i) 0 ENTRY_ARRAY_SIZE)⟩]

def headerUnchecked (h : GptPartitionHeader) : Bytes := storeFields w.junk 0 (headerFields w i h)

def headerMemory (h : GptPartitionHeader) : Bytes :=
  store (headerUnchecked w i h) 16 4
    (checksum w (slice (headerUnchecked w i h) 0 GPT_PARTITION_HEADER_SIZE))

def mbrFields (e : MbrEntry) : List FieldStore :=
  [⟨0, 1, e.bootIndicator⟩, ⟨4, 1, e.systemID⟩, ⟨8, 4, e.startLBA⟩, ⟨12, 4, e.size⟩,
    ⟨1, 1, e.startCHS.byte0⟩, ⟨2, 1, e.startCHS.byte1⟩, ⟨3, 1, e.startCHS.byte2⟩,
    ⟨5, 1, e.endCHS.byte0⟩, ⟨6, 1, e.endCHS.byte1⟩, ⟨7, 1, e.endCHS.byte2⟩]

/-- What a write of the routine puts into the file; there are as many entries written as are in
use. -/
def dataBytes : DiskData → List Byte
  | .mbrEntry e => slice (storeFields w.junk 0 (mbrFields e)) 0 16
  | .signature value => slice (store w.junk 0 2 value) 0 2
  | .header h => slice (headerMemory w i h) 0 GPT_PARTITION_HEADER_SIZE
  | .entries _ _ => slice (pPartitionEntryArray w i) 0 ENTRIES_SIZE

/-! A reader, by the format's own rules. -/

def crc32 (data : List Byte) : BitVec 32 :=
  crc 0xEDB88320 0xFFFFFFFF 0xFFFFFFFF (messageBits data)

def readHeader (m : Bytes) (p : Nat) : GptPartitionHeader where
  selfLBA := load m (p + 24) 8
  alternateLBA := load m (p + 32) 8
  firstUsableLBA := load m (p + 40) 8
  lastUsableLBA := load m (p + 48) 8
  partitionTableLBA := load m (p + 72) 8
  noPartitionEntries := load m (p + 80) 4
  bytesPerPartitionEntry := load m (p + 84) 4

def readEntry (m : Bytes) (p : Nat) : GptEntry where
  partitionTypeGUID := load m p 16
  partitionGUID := load m (p + 16) 16
  startLBA := load m (p + 32) 8
  endLBA := load m (p + 40) 8
  attributes := load m (p + 48) 8
  name := load m (p + 56) 72

def GptPartitionHeader.tableSize (h : GptPartitionHeader) : Nat :=
  h.noPartitionEntries * h.bytesPerPartitionEntry

/-- The header in a block passes all checks: it is inside the disk, it says what and where it is,
and both checksums are right, its own over the header with zero in its place. -/
structure HeaderAccepted (f : File) (block lba : Nat) : Prop where
  within : lba * block + block ≤ f.length
  signature : load f.bytes (lba * block) 8 = GPT_PARTITION_HEADER_SIGNATURE
  revision : load f.bytes (lba * block + 8) 4 = GPT_INITIAL_REVISION
  headerSize : load f.bytes (lba * block + 12) 4 = GPT_PARTITION_HEADER_SIZE
  checksum : load f.bytes (lba * block + 16) 4 =
    (crc32 (slice (store f.bytes (lba * block + 16) 4 0) (lba * block)
      GPT_PARTITION_HEADER_SIZE)).toNat
  selfLBA : (readHeader f.bytes (lba * block)).selfLBA = lba
  tableWithin : (readHeader f.bytes (lba * block)).partitionTableLBA * block +
    (readHeader f.bytes (lba * block)).tableSize ≤ f.length
  tableChecksum : load f.bytes (lba * block + 88) 4 =
    (crc32 (slice f.bytes ((readHeader f.bytes (lba * block)).partitionTableLBA * block)
      (readHeader f.bytes (lba * block)).tableSize)).toNat

def readMbrEntry (m : Bytes) (p : Nat) : MbrEntry where
  bootIndicator := load m p 1
  startCHS := ⟨load m (p + 1) 1, load m (p + 2) 1, load m (p + 3) 1⟩
  systemID := load m (p + 4) 1
  endCHS := ⟨load m (p + 5) 1, load m (p + 6) 1, load m (p + 7) 1⟩
  startLBA := load m (p + 8) 4
  size := load m (p + 12) 4

structure MbrReadsAs (f : File) (e : MbrEntry) : Prop where
  signature : load f.bytes MBR_SIGNATURE_OFFSET 2 = MBR_SIGNATURE
  entry : readMbrEntry f.bytes MBR_PARTITION_TABLE_OFFSET = e
  empty : ∀ k, k < 446 ∨ (462 ≤ k ∧ k < 510) → f.bytes k = 0

def entriesOf (f : File) (block : Nat) (h : GptPartitionHeader) : List GptEntry :=
  (List.range h.noPartitionEntries).map fun k =>
    readEntry f.bytes (h.partitionTableLBA * block + h.bytesPerPartitionEntry * k)

/-- The table that a header in a block leads to: that header, the two partitions, and unused
entries. -/
structure ReadsAs (f : File) (block lba : Nat) (h : GptPartitionHeader) : Prop where
  accepted : HeaderAccepted f block lba
  header : readHeader f.bytes (lba * block) = h
  entries : entriesOf f block h =
    entryEFI w i :: entryOS w i :: List.replicate (NO_PARTITIONS_TO_ALLOCATE - 2) unusedEntry

variable {w i} {h : GptPartitionHeader} {e : GptEntry} {m : Bytes} {f : File} {p block lba : Nat}

theorem checksum_eq (data : List Byte) : checksum w data = (crc32 data).toNat := by
  rw [checksum, checksumCRC32, foldl_checksumByte, crc32, crc]

/-! The buffers. -/

theorem headerFields_apart : (headerFields w i h).Pairwise FieldStore.Apart := by
  simp [headerFields, FieldStore.Apart]

theorem entryFields_apart : (entryFields e).Pairwise FieldStore.Apart := by
  simp [entryFields, FieldStore.Apart]

structure GptPartitionHeader.InRange (h : GptPartitionHeader) : Prop where
  selfLBA : h.selfLBA < 2 ^ 64
  alternateLBA : h.alternateLBA < 2 ^ 64
  firstUsableLBA : h.firstUsableLBA < 2 ^ 64
  lastUsableLBA : h.lastUsableLBA < 2 ^ 64
  partitionTableLBA : h.partitionTableLBA < 2 ^ 64
  noPartitionEntries : h.noPartitionEntries < 2 ^ 32
  bytesPerPartitionEntry : h.bytesPerPartitionEntry < 2 ^ 32

structure GptEntry.InRange (e : GptEntry) : Prop where
  partitionTypeGUID : e.partitionTypeGUID < 256 ^ 16
  partitionGUID : e.partitionGUID < 256 ^ 16
  startLBA : e.startLBA < 2 ^ 64
  endLBA : e.endLBA < 2 ^ 64
  attributes : e.attributes < 2 ^ 64
  name : e.name < 256 ^ 72

theorem mbrFields_apart (e : MbrEntry) : (mbrFields e).Pairwise FieldStore.Apart := by
  simp [mbrFields, FieldStore.Apart]

structure MbrEntry.InRange (e : MbrEntry) : Prop where
  bootIndicator : e.bootIndicator < 2 ^ 8
  startCHS : e.startCHS.byte0 < 2 ^ 8 ∧ e.startCHS.byte1 < 2 ^ 8 ∧ e.startCHS.byte2 < 2 ^ 8
  systemID : e.systemID < 2 ^ 8
  endCHS : e.endCHS.byte0 < 2 ^ 8 ∧ e.endCHS.byte1 < 2 ^ 8 ∧ e.endCHS.byte2 < 2 ^ 8
  startLBA : e.startLBA < 2 ^ 32
  size : e.size < 2 ^ 32

theorem imgtool_LBAToCHS_lt (lba : Nat) : (imgtool_LBAToCHS lba).byte0 < 2 ^ 8 ∧
    (imgtool_LBAToCHS lba).byte1 < 2 ^ 8 ∧ (imgtool_LBAToCHS lba).byte2 < 2 ^ 8 :=
  ⟨Nat.mod_lt _ (by decide), Nat.mod_lt _ (by decide), Nat.mod_lt _ (by decide)⟩

theorem protectiveMbr_inRange (blocks : Nat) : (protectiveMbr blocks).InRange where
  bootIndicator := (by decide : MBR_BOOT_INDICATOR_NO < 2 ^ 8)
  startCHS := imgtool_LBAToCHS_lt 1
  systemID := (by decide : MBR_SYSTEM_ID_GPT_PROTECTIVE < 2 ^ 8)
  endCHS := imgtool_LBAToCHS_lt _
  startLBA := Nat.one_lt_two_pow (by decide)
  size := wrap32_lt _

theorem readMbrEntry_copied {e : MbrEntry} (hrange : e.InRange)
    (hcopied : Copied (storeFields m 0 (mbrFields e)) 0 f.bytes p 16) :
    readMbrEntry f.bytes p = e := by
  have hfield : ∀ k n v, (⟨k, n, v⟩ : FieldStore) ∈ mbrFields e → k + n ≤ 16 → v < 256 ^ n →
      load f.bytes (p + k) n = v := by
    intro k n v hmem hk hv
    have hread : load (storeFields m 0 (mbrFields e)) (0 + k) n = v % 256 ^ n :=
      load_storeFields (f := ⟨k, n, v⟩) (mbrFields_apart e) hmem
    rw [hcopied.load_at hk, hread, Nat.mod_eq_of_lt hv]
  obtain ⟨hboot, ⟨hstart0, hstart1, hstart2⟩, hsystem, ⟨hend0, hend1, hend2⟩, hlba, hsize⟩ := hrange
  have hfirst : load f.bytes p 1 = e.bootIndicator :=
    hfield 0 1 e.bootIndicator (by simp [mbrFields]) (by omega) hboot
  rw [readMbrEntry, hfirst, hfield 4 1 e.systemID (by simp [mbrFields]) (by omega) hsystem,
    hfield 8 4 e.startLBA (by simp [mbrFields]) (by omega) hlba,
    hfield 12 4 e.size (by simp [mbrFields]) (by omega) hsize,
    hfield 1 1 e.startCHS.byte0 (by simp [mbrFields]) (by omega) hstart0,
    hfield 2 1 e.startCHS.byte1 (by simp [mbrFields]) (by omega) hstart1,
    hfield 3 1 e.startCHS.byte2 (by simp [mbrFields]) (by omega) hstart2,
    hfield 5 1 e.endCHS.byte0 (by simp [mbrFields]) (by omega) hend0,
    hfield 6 1 e.endCHS.byte1 (by simp [mbrFields]) (by omega) hend1,
    hfield 7 1 e.endCHS.byte2 (by simp [mbrFields]) (by omega) hend2]

theorem unchecked_checksum : load (headerUnchecked w i h) 16 4 = 0 :=
  load_storeFields (f := ⟨16, 4, 0⟩) headerFields_apart (by simp [headerFields])

theorem headerMemory_field {k n v : Nat} (hmem : (⟨k, n, v⟩ : FieldStore) ∈ headerFields w i h)
    (hother : k + n ≤ 16 ∨ 20 ≤ k) (hv : v < 256 ^ n) : load (headerMemory w i h) k n = v := by
  have hkept : load (headerMemory w i h) k n = load (headerUnchecked w i h) k n :=
    load_congr (sameOn_store (by omega))
  have hread : load (headerUnchecked w i h) (0 + k) n = v % 256 ^ n :=
    load_storeFields (f := ⟨k, n, v⟩) headerFields_apart hmem
  rw [Nat.zero_add] at hread
  rw [hkept, hread, Nat.mod_eq_of_lt hv]

theorem headerMemory_readHeader (hrange : h.InRange) : readHeader (headerMemory w i h) 0 = h := by
  have hfield : ∀ k n v, (⟨k, n, v⟩ : FieldStore) ∈ headerFields w i h → 20 ≤ k → v < 256 ^ n →
      load (headerMemory w i h) (0 + k) n = v := by
    intro k n v hmem hk hv
    rw [Nat.zero_add]
    exact headerMemory_field hmem (Or.inr hk) hv
  obtain ⟨hself, halternate, hfirst, hlast, htable, hcount, hbytes⟩ := hrange
  rw [readHeader, hfield 24 8 h.selfLBA (by simp [headerFields]) (by omega) hself,
    hfield 32 8 h.alternateLBA (by simp [headerFields]) (by omega) halternate,
    hfield 40 8 h.firstUsableLBA (by simp [headerFields]) (by omega) hfirst,
    hfield 48 8 h.lastUsableLBA (by simp [headerFields]) (by omega) hlast,
    hfield 72 8 h.partitionTableLBA (by simp [headerFields]) (by omega) htable,
    hfield 80 4 h.noPartitionEntries (by simp [headerFields]) (by omega) hcount,
    hfield 84 4 h.bytesPerPartitionEntry (by simp [headerFields]) (by omega) hbytes]

theorem headerMemory_zeroed : store (headerMemory w i h) 16 4 0 = headerUnchecked w i h := by
  rw [headerMemory, store_store]
  have hsame := store_load_same (m := headerUnchecked w i h) (p := 16) (n := 4)
  rwa [unchecked_checksum] at hsame

theorem headerMemory_checksum : load (headerMemory w i h) 16 4 =
    (crc32 (slice (headerUnchecked w i h) 0 GPT_PARTITION_HEADER_SIZE)).toNat := by
  rw [headerMemory, checksum_eq, load_store_of_lt (BitVec.isLt _)]

theorem littleEndian_lt (bytes : List Nat) : littleEndian bytes < 256 ^ bytes.length := by
  induction bytes with
  | nil => exact Nat.one_pos
  | cons b bytes ih =>
    have hlow : b % 256 < 256 := Nat.mod_lt b (by decide)
    rw [littleEndian, List.length_cons, Nat.pow_succ']
    omega

theorem length_writeASCIIToUNICODE16LE (pSrc : List Nat) :
    (imgtool_WriteASCIIToUNICODE16LE pSrc).length = 72 := by
  have hflat : ∀ text : List Nat, (text.flatMap fun c => [c, 0x00]).length = 2 * text.length := by
    intro text
    induction text with
    | nil => rfl
    | cons c text ih =>
      rw [List.flatMap_cons, List.length_append, ih, List.length_cons]
      simp
      omega
  have hlen := List.length_take_le GPT_PARTITION_NAME_CHAR_COUNT (pSrc.takeWhile (· ≠ 0))
  unfold GPT_PARTITION_NAME_CHAR_COUNT at hlen
  rw [imgtool_WriteASCIIToUNICODE16LE, List.length_append, hflat, List.length_replicate]
  unfold GPT_PARTITION_NAME_CHAR_COUNT
  omega

theorem partitionName_lt (text : String) : partitionName text < 256 ^ 72 := by
  have hlt := littleEndian_lt (imgtool_WriteASCIIToUNICODE16LE (text.toList.map Char.toNat))
  rwa [length_writeASCIIToUNICODE16LE] at hlt

theorem storeFields_entry {m' : Bytes} (hrange : e.InRange)
    (hsame : SameOn (storeFields m p (entryFields e)) m' p (p + 128)) :
    readEntry m' p = e := by
  have hfield : ∀ k n v, (⟨k, n, v⟩ : FieldStore) ∈ entryFields e → k + n ≤ 128 → v < 256 ^ n →
      load m' (p + k) n = v := by
    intro k n v hmem hk hv
    have hread : load (storeFields m p (entryFields e)) (p + k) n = v % 256 ^ n :=
      load_storeFields (f := ⟨k, n, v⟩) entryFields_apart hmem
    rw [load_congr (hsame.mono (by omega) (by omega)), hread, Nat.mod_eq_of_lt hv]
  obtain ⟨htype, hguid, hstart, hend, hattributes, hname⟩ := hrange
  have hfirst : load m' p 16 = e.partitionTypeGUID :=
    hfield 0 16 e.partitionTypeGUID (by simp [entryFields]) (by omega) htype
  rw [readEntry, hfirst, hfield 16 16 e.partitionGUID (by simp [entryFields]) (by omega) hguid,
    hfield 32 8 e.startLBA (by simp [entryFields]) (by omega) hstart,
    hfield 40 8 e.endLBA (by simp [entryFields]) (by omega) hend,
    hfield 48 8 e.attributes (by simp [entryFields]) (by omega) hattributes,
    hfield 56 72 e.name (by simp [entryFields]) (by omega) hname]

theorem readEntry_zeros (h : ∀ k, k < 128 → m (p + k) = 0) : readEntry m p = unusedEntry := by
  have hzero : ∀ k n, k + n ≤ 128 → load m (p + k) n = 0 := by
    intro k n hk
    refine load_zeros fun j hj => ?_
    rw [Nat.add_assoc]
    exact h (k + j) (by omega)
  have hfirst : load m p 16 = 0 := hzero 0 16 (by omega)
  rw [readEntry, hfirst, hzero 16 16 (by omega), hzero 32 8 (by omega), hzero 40 8 (by omega),
    hzero 48 8 (by omega), hzero 56 72 (by omega)]
  rfl

structure StandardImage.InRange (i : StandardImage) : Prop where
  startEFI : i.partEFI.startLBA < 2 ^ 64
  endEFI : i.partEFI.endLBA < 2 ^ 64
  startOS : i.partOS.startLBA < 2 ^ 64
  endOS : i.partOS.endLBA < 2 ^ 64

theorem littleEndian_uuid_lt {bytes : List Nat} (h : bytes.length = 16) :
    littleEndian bytes < 256 ^ 16 := by
  rw [← h]
  exact littleEndian_lt bytes

theorem entryEFI_inRange (h : i.InRange) : (entryEFI w i).InRange where
  partitionTypeGUID := littleEndian_uuid_lt rfl
  partitionGUID := w.guidEFI.isLt
  startLBA := h.startEFI
  endLBA := h.endEFI
  attributes := (by decide : GPT_ATTRIBUTE_REQUIRED < 2 ^ 64)
  name := partitionName_lt _

theorem entryOS_inRange (h : i.InRange) : (entryOS w i).InRange where
  partitionTypeGUID := littleEndian_uuid_lt rfl
  partitionGUID := w.guidOS.isLt
  startLBA := h.startOS
  endLBA := h.endOS
  attributes := (by decide : GPT_ATTRIBUTE_REQUIRED < 2 ^ 64)
  name := partitionName_lt _

theorem entryArray_behind {k : Nat} (hlow : 256 ≤ k) (hhigh : k < 16384) :
    pPartitionEntryArray w i k = 0 := by
  have hin : ENTRIES_SIZE ≤ k ∧ k < ENTRIES_SIZE + (ENTRY_ARRAY_SIZE - ENTRIES_SIZE) :=
    ⟨hlow, hhigh⟩
  rw [pPartitionEntryArray, fill, if_pos hin]

theorem entryArray_before (a : Nat) : SameOn
    (storeFields (storeFields w.junk 0 (entryFields (entryEFI w i))) GPT_PARTITION_ENTRY_SIZE
      (entryFields (entryOS w i))) (pPartitionEntryArray w i) a 256 := by
  intro k _ hk
  have hout : ¬ (ENTRIES_SIZE ≤ k ∧ k < ENTRIES_SIZE + (ENTRY_ARRAY_SIZE - ENTRIES_SIZE)) :=
    fun hin => absurd hin.1 (Nat.not_le.mpr hk)
  rw [pPartitionEntryArray, fill, if_neg hout]

theorem entryArray_entries (h : i.InRange) {k : Nat} (hk : k < 128) :
    readEntry (pPartitionEntryArray w i) (128 * k) =
      if k = 0 then entryEFI w i else if k = 1 then entryOS w i else unusedEntry := by
  match k with
  | 0 =>
    have hfirst : SameOn (storeFields w.junk 0 (entryFields (entryEFI w i)))
        (pPartitionEntryArray w i) 0 128 := by
      have hsecond : SameOn (storeFields w.junk 0 (entryFields (entryEFI w i)))
          (storeFields (storeFields w.junk 0 (entryFields (entryEFI w i))) 128
            (entryFields (entryOS w i))) 0 128 :=
        sameOn_storeFields fun f _ => Or.inl (Nat.le_add_right _ _)
      exact hsecond.trans ((entryArray_before 0).mono le_rfl (by decide))
    exact storeFields_entry (entryEFI_inRange h) hfirst
  | 1 => exact storeFields_entry (entryOS_inRange h) (entryArray_before 128)
  | k + 2 =>
    rw [if_neg (by omega), if_neg (by omega)]
    exact readEntry_zeros fun j hj => entryArray_behind (by omega) (by omega)

/-! The reader on a file that holds the buffers. -/

theorem readHeader_copied (hcopied : Copied m 0 f.bytes p 92) :
    readHeader f.bytes p = readHeader m 0 := by
  have hload : ∀ k n, k + n ≤ 92 → load f.bytes (p + k) n = load m (0 + k) n :=
    fun k n hk => hcopied.load_at hk
  rw [readHeader, readHeader, hload 24 8 (by omega), hload 32 8 (by omega), hload 40 8 (by omega),
    hload 48 8 (by omega), hload 72 8 (by omega), hload 80 4 (by omega), hload 84 4 (by omega)]

theorem readEntry_copied {a : Nat} (hcopied : Copied m a f.bytes p 128) :
    readEntry f.bytes p = readEntry m a := by
  have hload : ∀ k n, k + n ≤ 128 → load f.bytes (p + k) n = load m (a + k) n :=
    fun k n hk => hcopied.load_at hk
  have hfirst : load f.bytes p 16 = load m a 16 := hload 0 16 (by omega)
  rw [readEntry, readEntry, hfirst, hload 16 16 (by omega), hload 32 8 (by omega),
    hload 40 8 (by omega), hload 48 8 (by omega), hload 56 72 (by omega)]

theorem readsAs_of_copied (hrange : h.InRange) (hi : i.InRange) (hself : h.selfLBA = lba)
    (hcount : h.noPartitionEntries = 128) (hsize : h.bytesPerPartitionEntry = 128)
    (hwithin : lba * block + block ≤ f.length)
    (htableWithin : h.partitionTableLBA * block + 16384 ≤ f.length)
    (hheader : Copied (headerMemory w i h) 0 f.bytes (lba * block) 92)
    (htable : Copied (pPartitionEntryArray w i) 0 f.bytes (h.partitionTableLBA * block) 16384) :
    ReadsAs w i f block lba h := by
  have hread : readHeader f.bytes (lba * block) = h := by
    rw [readHeader_copied hheader, headerMemory_readHeader hrange]
  have hload : ∀ k n v, (⟨k, n, v⟩ : FieldStore) ∈ headerFields w i h →
      k + n ≤ 92 → k + n ≤ 16 ∨ 20 ≤ k → v < 256 ^ n → load f.bytes (lba * block + k) n = v := by
    intro k n v hmem hk hother hv
    rw [hheader.load_at hk, Nat.zero_add]
    exact headerMemory_field hmem hother hv
  have htotal : h.tableSize = 16384 := by rw [GptPartitionHeader.tableSize, hcount, hsize]
  refine ⟨⟨hwithin, ?_, ?_, ?_, ?_, ?_, ?_, ?_⟩, hread, ?_⟩
  · exact hload 0 8 _ (by simp [headerFields]) (by omega) (by omega) (littleEndian_lt _)
  · exact hload 8 4 GPT_INITIAL_REVISION (by simp [headerFields]) (by omega) (by omega) (by decide)
  · exact hload 12 4 GPT_PARTITION_HEADER_SIZE (by simp [headerFields]) (by omega) (by omega)
      (by decide)
  · have hzeroed : slice (store f.bytes (lba * block + 16) 4 0) (lba * block) 92 =
        slice (headerUnchecked w i h) 0 92 := by
      rw [(hheader.store 16 4 0).slice_eq, Nat.zero_add, headerMemory_zeroed]
    rw [hheader.load_at (k := 16) (w := 4) (by omega), Nat.zero_add, headerMemory_checksum,
      GPT_PARTITION_HEADER_SIZE, hzeroed]
  · rw [hread, hself]
  · rw [hread, htotal]
    exact htableWithin
  · have harray : ENTRY_ARRAY_SIZE = 16384 := rfl
    rw [hread, htotal, htable.slice_eq, ← checksum_eq (w := w)]
    exact hload 88 4 _ (by simp [headerFields, harray]) (by omega) (by omega) (BitVec.isLt _)
  · have hentry : ∀ k ∈ List.range 128, readEntry f.bytes (h.partitionTableLBA * block + 128 * k) =
        if k = 0 then entryEFI w i else if k = 1 then entryOS w i else unusedEntry := by
      intro k hk
      have hlt := List.mem_range.mp hk
      rw [readEntry_copied (htable.sub (by omega)), Nat.zero_add, entryArray_entries hi hlt]
    rw [entriesOf, hcount, hsize, List.map_congr_left hentry]
    rfl

end Ych.Imgtool
