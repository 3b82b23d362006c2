import Ych.Base.ByteMemory
import Ych.KRTL.Krnlmem
import Ych.KRTL.Krnlstring
import Ych.Memory.RegionNodeAllocator

/-! ACPI tables: the checks of the XSDT, and the search for a table in it. -/
namespace Ych.Acpi
open Words Bitmap ByteMemory Krnlmem Krnlstring Virtmemmgmt

def KR_ACPI_SDT_SIGNATURE_SIZE : Nat := 4

def sizeofSdtHeader : Nat := 36

def bytesAt (memory : Bytes) (p : Nat) : Bytes := fun i => memory (wrap64 (p + i))

def literal (text : String) : Bytes := fun i => (chars text).getD i 0#8

def KR_ACPI_XSDT_SIGNATURE : Bytes := literal "XSDT"

def dwLength (table : Bytes) : Nat := load table 4 4

/-- From the last byte of the structure to its first. -/
def checksumFrom (acpiStruct : Bytes) : Nat → Byte → Byte
  | 0, sum => sum
  | n + 1, sum => checksumFrom acpiStruct n (sum + acpiStruct n)

def krAcpiCalculateChecksum (acpiStruct : Bytes) (dwStructLength : Nat) : Byte :=
  checksumFrom acpiStruct dwStructLength 0

def krAcpiIsChecksumValid (acpiStruct : Bytes) (dwStructLength : Nat) : Bool :=
  krAcpiCalculateChecksum acpiStruct dwStructLength == 0

/-- The checks of the XSDT in `KrInitACPI`: the text it fails with. -/
def checkXsdt (xsdt : Bytes) : Option String :=
  if krtlBufferEqual xsdt KR_ACPI_XSDT_SIGNATURE KR_ACPI_SDT_SIGNATURE_SIZE = false then
    some "ACPI RSDP pointer to the XSDT is invalid as pointed address contains invalid signature."
  else if krAcpiIsChecksumValid xsdt (dwLength xsdt) = false then
    some "ACPI XSDT structure has invalid checksum."
  else none

def entryOffset (i : Nat) : Nat := sizeofSdtHeader + 8 * i

def entryTable (sdt : Bytes) (i : Nat) : Nat := krPhysToVirt (load sdt (entryOffset i) 8)

def locateFrom (memory sdt tableSignature : Bytes) : Nat → Nat → List Nat × Nat
  | 0, _ => ([], 0)
  | n + 1, i =>
    let pEntry := entryTable sdt i
    if krtlBufferEqual (bytesAt memory pEntry) tableSignature KR_ACPI_SDT_SIGNATURE_SIZE then
      ([entryOffset i], pEntry)
    else
      let (reads, result) := locateFrom memory sdt tableSignature n (i + 1)
      (entryOffset i :: reads, result)

/-- `EntryCount`: the length is widened before the header is taken off, and the quotient is cut
to 32 bits. -/
def entryCount (sdt : Bytes) : Nat := wrap32 (sub64 (dwLength sdt) sizeofSdtHeader / 8)

/-- The offsets in the table of the entries that the search reads, and its result. -/
def krAcpiLocateTable (memory : Bytes) (pSDT : Nat) (tableSignature : Bytes) : List Nat × Nat :=
  locateFrom memory (bytesAt memory pSDT) tableSignature (entryCount (bytesAt memory pSDT)) 0

/-! ### What the search is for -/

structure FourCharacters (s : Bytes) : Prop where
  characters : ∀ i < 4, s i ≠ 0
  terminated : s 4 = 0

def tablesOf (sdt : Bytes) : List Nat :=
  (List.range ((dwLength sdt - sizeofSdtHeader) / 8)).map (entryTable sdt)

def firstTable (memory sdt tableSignature : Bytes) : Option Nat :=
  (tablesOf sdt).find? fun p => decide (SameBytes (bytesAt memory p) tableSignature 4)

structure LocateKept (memory : Bytes) (pSDT : Nat) (tableSignature : Bytes) : Prop where
  reads : ∀ offset ∈ (krAcpiLocateTable memory pSDT tableSignature).1,
    offset + 8 ≤ dwLength (bytesAt memory pSDT)
  result : (krAcpiLocateTable memory pSDT tableSignature).2 =
    (firstTable memory (bytesAt memory pSDT) tableSignature).getD 0

variable {memory sdt tableSignature : Bytes} {pSDT n i : Nat}

theorem dwLength_lt (table : Bytes) : dwLength table < 2 ^ 32 := load_lt table 4 4

theorem dwLength_mod (table : Bytes) : dwLength table % 256 = (table 4).toNat := by
  have hbyte := (table 4).isLt
  rw [dwLength, load]
  omega

theorem entryCount_eq (h : sizeofSdtHeader ≤ dwLength sdt) :
    entryCount sdt = (dwLength sdt - sizeofSdtHeader) / 8 := by
  have hlt := dwLength_lt sdt
  rw [entryCount, sub64_of_le h (hlt.trans (by decide)), wrap32_of_lt (by omega)]

theorem entryCount_pos (h : dwLength sdt < sizeofSdtHeader) : 0 < entryCount sdt := by
  have hsize : sizeofSdtHeader = 36 := rfl
  unfold entryCount sub64 wrap32
  omega

/-- The table that the comparison finds: its length must not be a multiple of 256. -/
def isFound (memory tableSignature : Bytes) (p : Nat) : Bool :=
  decide (SameBytes (bytesAt memory p) tableSignature 4) && bytesAt memory p 4 != 0

theorem krtlBufferEqual_signature (hsig : FourCharacters tableSignature) (p : Nat) :
    krtlBufferEqual (bytesAt memory p) tableSignature KR_ACPI_SDT_SIGNATURE_SIZE =
      isFound memory tableSignature p := by
  have hsize : KR_ACPI_SDT_SIGNATURE_SIZE = 4 := rfl
  rw [Bool.eq_iff_iff, hsize, krtlBufferEqual_iff, hsig.terminated]
  simp [isFound]

theorem locateFrom_reads :
    ∀ offset ∈ (locateFrom memory sdt tableSignature n i).1, ∃ j < n,
      offset = entryOffset (i + j) := by
  induction n generalizing i with
  | zero => exact fun offset h => absurd h List.not_mem_nil
  | succ n ih =>
    rw [locateFrom]
    intro offset h
    split at h
    · exact ⟨0, Nat.succ_pos n, List.mem_singleton.mp h⟩
    · cases List.mem_cons.mp h with
      | inl heq => exact ⟨0, Nat.succ_pos n, heq⟩
      | inr h =>
        obtain ⟨j, hj, rfl⟩ := ih offset h
        exact ⟨j + 1, Nat.succ_lt_succ hj, by rw [Nat.add_assoc, Nat.add_comm 1 j]⟩

theorem locateFrom_result (hsig : FourCharacters tableSignature) :
    (locateFrom memory sdt tableSignature n i).2 =
      (((List.range' i n).map (entryTable sdt)).find? (isFound memory tableSignature)).getD 0 := by
  induction n generalizing i with
  | zero => rfl
  | succ n ih =>
    rw [locateFrom, krtlBufferEqual_signature hsig, List.range'_succ, List.map_cons,
      List.find?_cons]
    cases isFound memory tableSignature (entryTable sdt i) with
    | true => rfl
    | false => exact ih

theorem find_narrower {α : Type*} {p q : α → Bool} {l : List α} {d : α}
    (hq : ∀ a, q a = true → p a = true) (hd : ∀ a ∈ l, a ≠ d) :
    (l.find? q).getD d = (l.find? p).getD d ↔ ∀ a, l.find? p = some a → q a = true := by
  constructor
  · intro heq a ha
    rw [ha, Option.getD_some] at heq
    have hne : a ≠ d := hd a (List.mem_of_find?_eq_some ha)
    cases hfind : l.find? q with
    | none =>
      rw [hfind] at heq
      exact absurd heq.symm hne
    | some b =>
      rw [hfind, Option.getD_some] at heq
      exact heq ▸ List.find?_some hfind
  · intro h
    cases hfind : l.find? p with
    | none =>
      have hnone : l.find? q = none := by
        rw [List.find?_eq_none] at hfind ⊢
        exact fun a ha hqa => hfind a ha (hq a hqa)
      rw [hnone]
    | some a =>
      have hqa : q a = true := h a hfind
      have hsome : l.find? q = some a := by
        rw [List.find?_eq_some_iff_append] at hfind ⊢
        obtain ⟨-, before, after, hl, hbefore⟩ := hfind
        refine ⟨hqa, before, after, hl, fun b hb => ?_⟩
        have hpb := hbefore b hb
        grind
      rw [hsome]

theorem krAcpiLocateTable_within (hsig : FourCharacters tableSignature)
    (hheader : sizeofSdtHeader ≤ dwLength (bytesAt memory pSDT)) :
    (∀ offset ∈ (krAcpiLocateTable memory pSDT tableSignature).1,
      offset + 8 ≤ dwLength (bytesAt memory pSDT)) ∧
    (krAcpiLocateTable memory pSDT tableSignature).2 =
      ((tablesOf (bytesAt memory pSDT)).find? (isFound memory tableSignature)).getD 0 := by
  rw [krAcpiLocateTable, entryCount_eq hheader]
  refine ⟨fun offset hoffset => ?_, ?_⟩
  · obtain ⟨j, hj, rfl⟩ := locateFrom_reads offset hoffset
    unfold entryOffset
    omega
  · rw [locateFrom_result hsig, tablesOf, List.range_eq_range']

theorem krAcpiLocateTable_outside (hshort : dwLength (bytesAt memory pSDT) < sizeofSdtHeader) :
    sizeofSdtHeader ∈ (krAcpiLocateTable memory pSDT tableSignature).1 := by
  obtain ⟨n, hn⟩ := Nat.exists_eq_add_of_le' (entryCount_pos hshort)
  rw [krAcpiLocateTable, hn, locateFrom]
  split
  · exact List.mem_singleton_self _
  · exact List.mem_cons_self

theorem isFound_first {p : Nat} (hp : firstTable memory sdt tableSignature = some p) :
    isFound memory tableSignature p = true ↔ ¬256 ∣ dwLength (bytesAt memory p) := by
  have hsame := List.find?_some hp
  have hmod : 256 ∣ dwLength (bytesAt memory p) ↔ bytesAt memory p 4 = 0 := by
    rw [Nat.dvd_iff_mod_eq_zero, dwLength_mod]
    exact BitVec.toNat_inj (y := 0)
  rw [isFound, hsame, Bool.true_and, bne_iff_ne, hmod]

/-- The search does what it is for exactly if the header is within the length and the first table
with the signature, if there is one, has a length that is no multiple of 256. -/
theorem locateKept_iff (memory : Bytes) (pSDT : Nat) (tableSignature : Bytes)
    (hsig : FourCharacters tableSignature)
    (hentries : ∀ p ∈ tablesOf (bytesAt memory pSDT), p ≠ 0) :
    LocateKept memory pSDT tableSignature ↔
      sizeofSdtHeader ≤ dwLength (bytesAt memory pSDT) ∧
      ∀ p, firstTable memory (bytesAt memory pSDT) tableSignature = some p →
        ¬256 ∣ dwLength (bytesAt memory p) := by
  have hnarrow : ∀ p, isFound memory tableSignature p = true →
      decide (SameBytes (bytesAt memory p) tableSignature 4) = true :=
    fun p h => (Bool.and_eq_true_iff.mp h).1
  by_cases hheader : sizeofSdtHeader ≤ dwLength (bytesAt memory pSDT)
  · obtain ⟨hreads, hresult⟩ := krAcpiLocateTable_within hsig hheader
    rw [and_iff_right hheader]
    constructor
    · intro hkept p hp
      have heq := hkept.result
      rw [hresult] at heq
      exact (isFound_first hp).mp ((find_narrower hnarrow hentries).mp heq p hp)
    · refine fun h => ⟨hreads, ?_⟩
      rw [hresult]
      exact (find_narrower hnarrow hentries).mpr fun p hp => (isFound_first hp).mpr (h p hp)
  · refine iff_of_false (fun hkept => ?_) fun h => hheader h.1
    have hoffset := hkept.reads _ (krAcpiLocateTable_outside (Nat.lt_of_not_le hheader))
    omega

def xsdtAddress : Nat := 0xFFFF800000001000

/-- An XSDT with one entry, for a MADT that is longer than 256 bytes by the given number. -/
def xsdtMemory (lowByte : Byte) : Bytes := fun a =>
  if 0xFFFF800000002000 ≤ a then
    [0x41#8, 0x50#8, 0x49#8, 0x43#8, lowByte, 1#8].getD (a - 0xFFFF800000002000) 0#8
  else if xsdtAddress ≤ a then
    [0x58#8, 0x53#8, 0x44#8, 0x54#8, 0x2C#8, 0#8, 0#8, 0#8, 0#8, 0x71#8].getD (a - xsdtAddress)
      (if a = xsdtAddress + 37 then 0x20#8 else 0#8)
  else 0#8

theorem checkXsdt_xsdtMemory : checkXsdt (bytesAt (xsdtMemory 0) xsdtAddress) = none := by
  decide +kernel

theorem fourCharacters_madt : FourCharacters (literal "APIC") := ⟨by decide, by decide⟩

theorem tablesOf_xsdtMemory : ∀ lowByte ∈ [0#8, 44#8],
    ∀ p ∈ tablesOf (bytesAt (xsdtMemory lowByte) xsdtAddress), p ≠ 0 := by
  decide +kernel

theorem locateKept_iff_madt : LocateKept (xsdtMemory 44) xsdtAddress (literal "APIC") ↔
    sizeofSdtHeader ≤ dwLength (bytesAt (xsdtMemory 44) xsdtAddress) ∧
      ∀ p, firstTable (xsdtMemory 44) (bytesAt (xsdtMemory 44) xsdtAddress) (literal "APIC") =
        some p → ¬256 ∣ dwLength (bytesAt (xsdtMemory 44) p) :=
  locateKept_iff (xsdtMemory 44) xsdtAddress (literal "APIC") fourCharacters_madt
    (tablesOf_xsdtMemory 44#8 (by decide))

/-- The MADT has 256 bytes and is not found. -/
theorem madt_not_found :
    ¬∀ (memory : Bytes) (pXsdt : Nat) (tableSignature : Bytes),
      checkXsdt (bytesAt memory pXsdt) = none → FourCharacters tableSignature →
      (∀ p ∈ tablesOf (bytesAt memory pXsdt), p ≠ 0) → LocateKept memory pXsdt tableSignature := by
  intro hall
  have hkept := hall (xsdtMemory 0) xsdtAddress (literal "APIC") checkXsdt_xsdtMemory
    fourCharacters_madt (tablesOf_xsdtMemory 0#8 (by decide))
  exact absurd hkept.result (by decide +kernel)

end Ych.Acpi
