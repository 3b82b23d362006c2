import Ych.Tools.GptFormat

/-! The bytes of the standard disk, and what a reader of GUID partition tables finds on it. -/
namespace Ych.Imgtool
open Bitmap ByteMemory ByteFiles Words

variable (w : Surroundings) (i : StandardImage)

def FileCall.apply (f : File) : FileCall → File
  | .fopen _ => File.emptied
  | .ftruncate length => f.truncate length
  | .fseek offset => f.seek offset
  | .fwrite data => f.write (dataBytes w i data)
  | .malloc _ => f

/-- A call that fails; of a write, `written` bytes may have gone into the file. -/
def FileCall.applyFailed (written : Nat) (f : File) : FileCall → File
  | .fwrite data => f.write ((dataBytes w i data).take written)
  | _ => f

def fileAfter (succeeds : MakeStdSite → Bool) (written : Nat) : List MakeStdStep → File → File
  | [], f => f
  | step :: steps, f =>
    if succeeds step.site then fileAfter succeeds written steps (step.call.apply w i f)
    else if step.aborts then step.call.applyFailed w i written f
    else fileAfter succeeds written steps (step.call.applyFailed w i written f)

def standardDisk (succeeds : MakeStdSite → Bool) (written : Nat) (path : String)
    (iDiskSize iBlockSize : Int) : File :=
  let i := standardImage iDiskSize iBlockSize
  fileAfter w i succeeds written (makeStdSteps path iDiskSize iBlockSize i) File.emptied

variable {w} {i} {h : GptPartitionHeader} {m : Bytes} {p block lba : Nat}

/-! The routine's writes. -/

/-- The places of the writes, in their order; `entries` is what the first write of the entries
gets into the file. -/
def diskPieces (w : Surroundings) (i : StandardImage) (block : Nat) (entries : List Byte) :
    List Piece :=
  [⟨MBR_PARTITION_TABLE_OFFSET, dataBytes w i (.mbrEntry (protectiveMbr i.blockCount))⟩,
    ⟨MBR_SIGNATURE_OFFSET, dataBytes w i (.signature MBR_SIGNATURE)⟩,
    ⟨blockAddress block i.header.selfLBA, dataBytes w i (.header i.header)⟩,
    ⟨blockAddress block i.alternate.selfLBA, dataBytes w i (.header i.alternate)⟩,
    ⟨blockAddress block i.header.partitionTableLBA, entries⟩,
    ⟨blockAddress block i.alternate.partitionTableLBA,
      dataBytes w i (.entries i.partEFI i.partOS)⟩]

def firstEntries (w : Surroundings) (i : StandardImage) (succeeds : MakeStdSite → Bool)
    (written : Nat) : List Byte :=
  let entries := dataBytes w i (.entries i.partEFI i.partOS)
  if succeeds .writeEntries then entries else entries.take written

theorem fileAfter_succeeds {succeeds : MakeStdSite → Bool} {written : Nat} {step : MakeStdStep}
    (steps : List MakeStdStep) (f : File) (h : succeeds step.site = true) :
    fileAfter w i succeeds written (step :: steps) f =
      fileAfter w i succeeds written steps (step.call.apply w i f) := by
  rw [fileAfter, if_pos h]

theorem fileAfter_writeEntries {succeeds : MakeStdSite → Bool} {written : Nat} {text : String}
    (steps : List MakeStdStep) (f : File) :
    fileAfter w i succeeds written (⟨.writeEntries, .fwrite (.entries i.partEFI i.partOS), text,
        false⟩ :: steps) f =
      fileAfter w i succeeds written steps (f.write (firstEntries w i succeeds written)) := by
  rw [fileAfter, firstEntries]
  cases succeeds .writeEntries <;> rfl

theorem fileAfter_pieces {succeeds : MakeStdSite → Bool}
    (hall : ∀ site, site ≠ .writeEntries → succeeds site = true) (written : Nat) (path : String)
    (disk : Int) (i : StandardImage) :
    fileAfter w i succeeds written (makeStdSteps path disk block i) File.emptied =
      writeAll (File.emptied.truncate (blockAddress block i.blockCount))
        (diskPieces w i block (firstEntries w i succeeds written)) := by
  rw [makeStdSteps, fileAfter_succeeds _ _ (hall .truncateDisk (by decide)),
    fileAfter_succeeds _ _ (hall .seekMbrTable (by decide)),
    fileAfter_succeeds _ _ (hall .writeMbr (by decide)),
    fileAfter_succeeds _ _ (hall .seekMbrSignature (by decide)),
    fileAfter_succeeds _ _ (hall .writeMbrSignature (by decide)),
    fileAfter_succeeds _ _ (hall .allocateEntries (by decide)),
    fileAfter_succeeds _ _ (hall .seekHeader (by decide)),
    fileAfter_succeeds _ _ (hall .writeHeader (by decide)),
    fileAfter_succeeds _ _ (hall .seekMirrorHeader (by decide)),
    fileAfter_succeeds _ _ (hall .writeMirrorHeader (by decide)),
    fileAfter_succeeds _ _ (hall .seekEntries (by decide)), fileAfter_writeEntries,
    fileAfter_succeeds _ _ (hall .seekMirrorEntries (by decide)),
    fileAfter_succeeds _ _ (hall .writeMirrorEntries (by decide))]
  rfl

/-! The places. -/

structure Places (block mirror last stop : Nat) : Prop where
  sector : 512 ≤ block
  apart : 2 * block + 16384 ≤ mirror
  behind : mirror + 16384 ≤ last
  last : last + block = stop

def placedPieces (w : Surroundings) (i : StandardImage) (block mirror last : Nat)
    (entries : List Byte) : List Piece :=
  [⟨446, dataBytes w i (.mbrEntry (protectiveMbr i.blockCount))⟩,
    ⟨510, dataBytes w i (.signature MBR_SIGNATURE)⟩,
    ⟨block, dataBytes w i (.header i.header)⟩,
    ⟨last, dataBytes w i (.header i.alternate)⟩,
    ⟨2 * block, entries⟩,
    ⟨mirror, dataBytes w i (.entries i.partEFI i.partOS)⟩]

variable {mirror last stop : Nat} {entries : List Byte}

theorem array_copied (hfirst : Copied (pPartitionEntryArray w i) 0 m p 256)
    (hzero : ∀ k, 256 ≤ k → k < 16384 → m (p + k) = 0) :
    Copied (pPartitionEntryArray w i) 0 m p 16384 := by
  intro k hk
  by_cases hlow : k < 256
  · exact hfirst k hlow
  · rw [hzero k (by omega) hk, Nat.zero_add, entryArray_behind (by omega) hk]

theorem length_dataBytes (data : DiskData) : (dataBytes w i data).length =
    match data with
    | .mbrEntry _ => 16
    | .signature _ => 2
    | .header _ => 92
    | .entries _ _ => 256 := by
  cases data <;> exact length_slice

theorem placedPieces_apart (hplaces : Places block mirror last stop)
    (hentries : entries.length ≤ 256) :
    (placedPieces w i block mirror last entries).Pairwise Piece.Apart := by
  obtain ⟨hsector, hapart, hbehind, hlast⟩ := hplaces
  simp only [placedPieces, List.pairwise_cons, List.mem_cons, List.not_mem_nil, or_false,
    forall_eq_or_imp, forall_eq, List.Pairwise.nil, IsEmpty.forall_iff, implies_true, and_true,
    Piece.Apart, Piece.stop, length_dataBytes]
  omega

theorem placedPieces_behind (hplaces : Places block mirror last stop)
    (hentries : entries.length ≤ 256) {a : Nat} (ha : a = 2 * block ∨ a = mirror) (m : Bytes) :
    SameOn m (putAll m (placedPieces w i block mirror last entries)) (a + 256) (a + 16384) := by
  obtain ⟨hsector, hapart, hbehind, hlast⟩ := hplaces
  refine sameOn_putAll ?_
  simp only [placedPieces, List.mem_cons, List.not_mem_nil, or_false, forall_eq_or_imp, forall_eq,
    Piece.stop, length_dataBytes]
  omega

theorem placedPieces_first (hplaces : Places block mirror last stop) (m : Bytes) {k : Nat}
    (hk : k < 446 ∨ (462 ≤ k ∧ k < 510)) :
    putAll m (placedPieces w i block mirror last entries) k = m k := by
  obtain ⟨hsector, hapart, hbehind, hlast⟩ := hplaces
  have hsame : SameOn m (putAll m (placedPieces w i block mirror last entries)) k (k + 1) := by
    refine sameOn_putAll ?_
    simp only [placedPieces, List.mem_cons, List.not_mem_nil, or_false, forall_eq_or_imp, forall_eq,
      Piece.stop, length_dataBytes]
    omega
  exact hsame k le_rfl (Nat.lt_succ_self k)

variable {count table start blocks : Nat}

theorem sub64_lt (a b : Nat) : sub64 a b < 2 ^ 64 := Nat.mod_lt _ (by decide)

theorem standardTables_headers (start blocks : Nat) (hroom : 2 * table + 3 ≤ count)
    (hlt : count < 2 ^ 64) :
    (standardTables count table start blocks).alternate.selfLBA = count - 1 ∧
    (standardTables count table start blocks).alternate.partitionTableLBA = count - 1 - table := by
  have halternate : sub64 count 1 = count - 1 := sub64_of_le (by omega) hlt
  have hbelow : sub64 (count - 1) 1 = count - 2 := sub64_of_le (by omega) (by omega)
  have hlast : sub64 (count - 2) table = count - 2 - table := sub64_of_le (by omega) (by omega)
  have hmirror : wrap64 (count - 2 - table + 1) = count - 1 - table := by
    rw [wrap64_of_lt (by omega)]
    omega
  simp only [standardTables, halternate, hbelow, hlast, hmirror, and_self]

theorem standardTables_inRange (hstart : start < 2 ^ 64) :
    (standardTables count table start blocks).InRange where
  startEFI := hstart
  endEFI := sub64_lt _ _
  startOS := wrap64_lt _
  endOS := sub64_lt _ _

theorem standardTables_header_inRange :
    (standardTables count table start blocks).header.InRange where
  selfLBA := Nat.one_lt_two_pow (by decide)
  alternateLBA := sub64_lt _ _
  firstUsableLBA := wrap64_lt _
  lastUsableLBA := sub64_lt _ _
  partitionTableLBA := (by decide : 2 < 2 ^ 64)
  noPartitionEntries := (by decide : NO_PARTITIONS_TO_ALLOCATE < 2 ^ 32)
  bytesPerPartitionEntry := (by decide : GPT_PARTITION_ENTRY_SIZE < 2 ^ 32)

theorem standardTables_alternate_inRange :
    (standardTables count table start blocks).alternate.InRange where
  selfLBA := sub64_lt _ _
  alternateLBA := Nat.one_lt_two_pow (by decide)
  firstUsableLBA := wrap64_lt _
  lastUsableLBA := sub64_lt _ _
  partitionTableLBA := wrap64_lt _
  noPartitionEntries := (by decide : NO_PARTITIONS_TO_ALLOCATE < 2 ^ 32)
  bytesPerPartitionEntry := (by decide : GPT_PARTITION_ENTRY_SIZE < 2 ^ 32)

theorem places_of_room (hsector : 512 ≤ block) (htable : 16384 ≤ table * block)
    (hroom : 2 * table + 3 ≤ count) :
    Places block ((count - 1 - table) * block) ((count - 1) * block) (count * block) := by
  have hmirror : (table + 2) * block ≤ (count - 1 - table) * block :=
    Nat.mul_le_mul_right block (by omega)
  have hlast : (count - 1 - table) * block + table * block = (count - 1) * block := by
    rw [← Nat.add_mul]
    congr 1
    omega
  have hstop : (count - 1) * block + block = count * block := by
    rw [← Nat.succ_mul]
    congr 1
    omega
  rw [Nat.add_mul] at hmirror
  exact ⟨hsector, by omega, by omega, hstop⟩

theorem blockAddress_natCast {lba : Nat} (hblock : block < 2 ^ 31) (hlt : lba * block < 2 ^ 64) :
    blockAddress block lba = lba * block := by
  rw [blockAddress, toSize_natCast (by omega), wrap64_of_lt hlt]

theorem diskPieces_placed (hroom : 2 * table + 3 ≤ count) (hblock : block < 2 ^ 31)
    (hlt : count * block < 2 ^ 64) (hcount : count < 2 ^ 64) (entries : List Byte) :
    diskPieces w (standardTables count table start blocks) block entries =
      placedPieces w (standardTables count table start blocks) block
        ((count - 1 - table) * block) ((count - 1) * block) entries := by
  obtain ⟨hself, hmirror⟩ := standardTables_headers start blocks hroom hcount
  have haddress : ∀ lba, lba ≤ count → blockAddress block lba = lba * block := fun lba hle =>
    blockAddress_natCast hblock ((Nat.mul_le_mul_right block hle).trans_lt hlt)
  have hheader : blockAddress block (standardTables count table start blocks).header.selfLBA =
      block := (haddress 1 (by omega)).trans (Nat.one_mul block)
  have htable : blockAddress block
      (standardTables count table start blocks).header.partitionTableLBA = 2 * block :=
    haddress 2 (by omega)
  rw [diskPieces, placedPieces, hself, hmirror, haddress (count - 1) (by omega),
    haddress (count - 1 - table) (by omega), hheader, htable]
  rfl

/-! The disk. -/

def placedDisk (w : Surroundings) (i : StandardImage) (block mirror last stop : Nat)
    (entries : List Byte) : File :=
  writeAll (File.emptied.truncate stop) (placedPieces w i block mirror last entries)

section Disk
variable (hplaces : Places block mirror last stop) (hentries : entries.length ≤ 256)

theorem placedDisk_bytes : (placedDisk w i block mirror last stop entries).bytes =
    putAll (fun _ => 0) (placedPieces w i block mirror last entries) := by
  rw [placedDisk, writeAll_bytes]
  simp [File.truncate, File.emptied]

include hplaces hentries

theorem placedDisk_length : (placedDisk w i block mirror last stop entries).length = stop := by
  obtain ⟨hsector, hapart, hbehind, hlast⟩ := hplaces
  refine length_writeAll _ _ ?_
  simp only [placedPieces, List.mem_cons, List.not_mem_nil, or_false, forall_eq_or_imp, forall_eq,
    Piece.stop, length_dataBytes, File.truncate]
  omega

theorem placedDisk_copied (piece : Piece) {n : Nat}
    (hmem : piece ∈ placedPieces w i block mirror last entries) (hdata : piece.data = slice m 0 n) :
    Copied m 0 (placedDisk w i block mirror last stop entries).bytes piece.offset n := by
  rw [placedDisk_bytes]
  exact copied_putAll _ (placedPieces_apart hplaces hentries) hmem hdata

theorem placedDisk_array {a : Nat} (ha : a = 2 * block ∨ a = mirror)
    (hmem : (⟨a, dataBytes w i (.entries i.partEFI i.partOS)⟩ : Piece) ∈
      placedPieces w i block mirror last entries) :
    Copied (pPartitionEntryArray w i) 0 (placedDisk w i block mirror last stop entries).bytes a
      16384 := by
  refine array_copied (placedDisk_copied hplaces hentries _ hmem rfl) fun k hlow hhigh => ?_
  rw [placedDisk_bytes]
  exact placedPieces_behind hplaces hentries ha _ _ (by omega) (by omega)

theorem placedDisk_mbr :
    MbrReadsAs (placedDisk w i block mirror last stop entries) (protectiveMbr i.blockCount) := by
  constructor
  · have hcopied : Copied (store w.junk 0 2 MBR_SIGNATURE) 0
        (placedDisk w i block mirror last stop entries).bytes 510 2 :=
      placedDisk_copied hplaces hentries ⟨510, dataBytes w i (.signature MBR_SIGNATURE)⟩
        (by simp [placedPieces]) rfl
    exact hcopied.load_eq.trans (load_store_of_lt (by decide))
  · exact readMbrEntry_copied (m := w.junk) (protectiveMbr_inRange _)
      (placedDisk_copied hplaces hentries
        ⟨446, dataBytes w i (.mbrEntry (protectiveMbr i.blockCount))⟩ (by simp [placedPieces]) rfl)
  · intro k hk
    rw [placedDisk_bytes]
    exact placedPieces_first hplaces _ hk

theorem placedDisk_readsAs (hi : i.InRange) (hrange : h.InRange) (hself : h.selfLBA = lba)
    (hcount : h.noPartitionEntries = 128) (hsize : h.bytesPerPartitionEntry = 128)
    (hheader : lba * block = block ∨ lba * block = last)
    (hheaderMem : (⟨lba * block, dataBytes w i (.header h)⟩ : Piece) ∈
      placedPieces w i block mirror last entries)
    (htable : h.partitionTableLBA * block = 2 * block ∨ h.partitionTableLBA * block = mirror)
    (htableMem : (⟨h.partitionTableLBA * block, dataBytes w i (.entries i.partEFI i.partOS)⟩ :
      Piece) ∈ placedPieces w i block mirror last entries) :
    ReadsAs w i (placedDisk w i block mirror last stop entries) block lba h := by
  have hlength := placedDisk_length (w := w) (i := i) hplaces hentries
  have harray := placedDisk_array hplaces hentries htable htableMem
  have hcopied := placedDisk_copied hplaces hentries _ hheaderMem rfl
  obtain ⟨hsector, hapart, hbehind, hlast⟩ := hplaces
  refine readsAs_of_copied hrange hi hself hcount hsize ?_ ?_ hcopied harray
  · rw [hlength]
    omega
  · rw [hlength]
    omega

theorem placedDisk_alternate (hi : i.InRange) (hrange : i.alternate.InRange)
    (hcount : i.alternate.noPartitionEntries = 128)
    (hsize : i.alternate.bytesPerPartitionEntry = 128)
    (hself : i.alternate.selfLBA * block = last)
    (hmirror : i.alternate.partitionTableLBA * block = mirror) :
    ReadsAs w i (placedDisk w i block mirror last stop entries) block i.alternate.selfLBA
      i.alternate := by
  refine placedDisk_readsAs hplaces hentries hi hrange rfl hcount hsize (Or.inr hself) ?_
    (Or.inr hmirror) ?_
  · rw [hself]
    simp [placedPieces]
  · rw [hmirror]
    simp [placedPieces]

theorem placedDisk_primary (hi : i.InRange) (hrange : i.header.InRange)
    (hcount : i.header.noPartitionEntries = 128)
    (hsize : i.header.bytesPerPartitionEntry = 128) (hself : i.header.selfLBA = 1)
    (htable : i.header.partitionTableLBA = 2)
    (hwhole : entries = dataBytes w i (.entries i.partEFI i.partOS)) :
    ReadsAs w i (placedDisk w i block mirror last stop entries) block i.header.selfLBA
      i.header := by
  rw [hself]
  refine placedDisk_readsAs hplaces hentries hi hrange hself hcount hsize
    (Or.inl (Nat.one_mul block)) ?_ (Or.inl (by rw [htable])) ?_
  · rw [Nat.one_mul]
    simp [placedPieces]
  · rw [htable, hwhole]
    simp [placedPieces]

end Disk

theorem le_tableBlocks_mul (hpos : 0 < block) : 16384 ≤ tableBlocks block * block := by
  have hrest := Nat.lt_div_mul_add (a := 16384 + (block - 1)) hpos
  rw [← tableBlocks] at hrest
  omega

theorem diskBlocks_mul_le (disk block : Nat) :
    diskBlocks disk block * block ≤ disk * 1024 * 1024 + (block - 1) :=
  Nat.div_mul_le_self _ _

theorem sector_le_of_accepted {disk : Nat} (hpos : 0 < block)
    (haccepted : MakeStdAccepted disk block) : 512 ≤ block := by
  have hsectors := haccepted.2.1
  have hmod : (block : Int).tmod 512 = ((block % 512 : Nat) : Int) := rfl
  rw [hmod] at hsectors
  omega

theorem length_firstEntries {succeeds : MakeStdSite → Bool} {written : Nat} :
    (firstEntries w i succeeds written).length ≤ 256 := by
  have hwhole : (dataBytes w i (.entries i.partEFI i.partOS)).length = 256 := length_dataBytes _
  rw [firstEntries]
  cases succeeds .writeEntries with
  | true => exact hwhole.le
  | false => exact (List.length_take_le' _ _).trans hwhole.le

/-- Room for both tables, and no address that does not fit. -/
structure Roomy (disk block : Nat) : Prop where
  diskSize : disk < 2 ^ 31
  blockSize : block < 2 ^ 31
  room : 2 * tableBlocks block + 3 ≤ diskBlocks disk block

theorem Roomy.pos {disk : Nat} (h : Roomy disk block) : 0 < block := by
  have hroom := h.room
  by_contra hzero
  have hnone : diskBlocks disk block = 0 := by
    rw [Nat.eq_zero_of_not_pos hzero]
    exact Nat.div_zero _
  omega

theorem Roomy.bytes_lt {disk : Nat} (h : Roomy disk block) :
    diskBlocks disk block * block < 2 ^ 64 ∧ diskBlocks disk block < 2 ^ 64 := by
  have hdisk := h.diskSize
  have hblock := h.blockSize
  have hbytes := diskBlocks_mul_le disk block
  have hcount : diskBlocks disk block ≤ diskBlocks disk block * block :=
    Nat.le_mul_of_pos_right _ h.pos
  omega

theorem standardDisk_placed {disk : Nat} {succeeds : MakeStdSite → Bool}
    (hall : ∀ site, site ≠ .writeEntries → succeeds site = true) (w : Surroundings)
    (written : Nat) (path : String) (h : Roomy disk block) :
    standardDisk w succeeds written path disk block =
      placedDisk w (standardImage disk block) block
        ((diskBlocks disk block - 1 - tableBlocks block) * block)
        ((diskBlocks disk block - 1) * block) (diskBlocks disk block * block)
        (firstEntries w (standardImage disk block) succeeds written) := by
  obtain ⟨hbytes, hcount⟩ := h.bytes_lt
  have hstop : blockAddress block (diskBlocks disk block) = diskBlocks disk block * block :=
    blockAddress_natCast h.blockSize hbytes
  have htables := standardImage_natCast h.diskSize h.pos h.blockSize
  have hblocks : (standardImage disk block).blockCount = diskBlocks disk block := by
    rw [htables]
    rfl
  rw [standardDisk, fileAfter_pieces hall, placedDisk, hblocks, hstop, htables,
    diskPieces_placed h.room h.blockSize hbytes hcount]

def zeroSurroundings : Surroundings := ⟨0, 0, 0, fun _ => 0, fun _ => 0⟩

end Ych.Imgtool
