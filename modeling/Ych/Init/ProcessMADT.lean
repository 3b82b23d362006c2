import Ych.ACPI.LocateTable

/-! The records of the MADT: a cursor that goes on by the length each record gives. An offset is
from the beginning of the table. -/
namespace Ych.Acpi
open Words Bitmap ByteMemory

def KR_ACPI_MADT_RECORD_TYPE_PROCESSOR_LOCAL_APIC : Nat := 0
def KR_ACPI_MADT_RECORD_TYPE_IO_APIC : Nat := 1
def KR_ACPI_LAPIC_FLAGS_PROCESSOR_ENABLED : Nat := 1

def sizeofMadtHeader : Nat := 44

structure ProcInfo where
  localApicID : Nat
  acpiID : Nat
  e_v : Bool
  bsp : Bool
  rfd : Bool

structure IoApicInfo where
  paddrBase : Nat
  id : Nat
  firstIRQ : Nat
  e_v : Bool

/-- What `ProcessMADT` writes. `ioApicIDs` is the table and what is behind it. -/
structure AcpiState where
  idealProcessorCount : Nat
  activeProcessorCount : Nat
  procInfo : Nat → ProcInfo
  ioApics : Nat → IoApicInfo
  ioApicIDs : Nat → Nat
  ioApicCount : Nat

/-- Where a read begins, and its width. -/
abbrev Reads := List (Nat × Nat)

def processLocalApic (madt : Bytes) (cur : Nat) (s : AcpiState) : AcpiState × Reads :=
  let dwFlags := load madt (cur + 2) 4
  if hasFlag dwFlags KR_ACPI_LAPIC_FLAGS_PROCESSOR_ENABLED = false then (s, [(cur + 2, 4)])
  else
    let acpiID := load madt cur 1
    let localApicID := load madt (cur + 1) 1
    ({ s with
        idealProcessorCount := wrap32 (s.idealProcessorCount + 1)
        procInfo := Function.update s.procInfo localApicID
          { s.procInfo localApicID with e_v := true, bsp := false, acpiID, localApicID } },
      [(cur + 2, 4), (cur + 1, 1), (cur, 1)])

def processIoApic (madt : Bytes) (cur : Nat) (s : AcpiState) : AcpiState × Reads :=
  let id := load madt cur 1
  let baseAddress := load madt (cur + 2) 4
  let firstIRQ := load madt (cur + 6) 4
  ({ s with
      ioApics := Function.update s.ioApics id
        { s.ioApics id with e_v := true, id, firstIRQ, paddrBase := baseAddress }
      ioApicIDs := Function.update s.ioApicIDs s.ioApicCount id
      ioApicCount := wrap32 (s.ioApicCount + 1) },
    [(cur, 1), (cur + 6, 4), (cur + 2, 4)])

def processRecord (madt : Bytes) (eType cur : Nat) (s : AcpiState) : AcpiState × Reads :=
  if eType = KR_ACPI_MADT_RECORD_TYPE_PROCESSOR_LOCAL_APIC then processLocalApic madt cur s
  else if eType = KR_ACPI_MADT_RECORD_TYPE_IO_APIC then processIoApic madt cur s
  else (s, [])

/-- The loop, for as many rounds as there is fuel: the state behind it, and the reads. -/
def recordLoop (madt : Bytes) : Nat → Nat → AcpiState → Option (AcpiState × Reads)
  | 0, _, _ => none
  | fuel + 1, recordsCur, s =>
    if recordsCur < dwLength madt then
      let eType := load madt recordsCur 1
      let recordSize := load madt (recordsCur + 1) 1
      let (s, fields) := processRecord madt eType (recordsCur + 2) s
      -- The size is of the whole record, two bytes of which are passed already.
      match recordLoop madt fuel (recordsCur + 2 + recordSize - 2) s with
      | none => none
      | some (s, reads) => some (s, (recordsCur, 1) :: (recordsCur + 1, 1) :: (fields ++ reads))
    else some (s, [])

def markThisCpu (thisCpuID : Nat) (s : AcpiState) : AcpiState :=
  { s with
    activeProcessorCount := 1
    procInfo := Function.update s.procInfo thisCpuID
      { s.procInfo thisCpuID with bsp := true, rfd := true } }

def processMADT (madt : Bytes) (thisCpuID fuel : Nat) (s : AcpiState) :
    Option (AcpiState × Reads) :=
  match recordLoop madt fuel sizeofMadtHeader s with
  | none => none
  | some (s, reads) => some (markThisCpu thisCpuID s, (4, 4) :: reads)

/-! ### The places of the records -/

def recordType (madt : Bytes) (cur : Nat) : Nat := load madt cur 1
def recordSize (madt : Bytes) (cur : Nat) : Nat := load madt (cur + 1) 1

def recordNeeds (madt : Bytes) (cur : Nat) : Nat :=
  if recordType madt cur = KR_ACPI_MADT_RECORD_TYPE_PROCESSOR_LOCAL_APIC then 8
  else if recordType madt cur = KR_ACPI_MADT_RECORD_TYPE_IO_APIC then 12
  else 2

/-- The places within the table that the sizes of the records lead to. -/
inductive RecordAt (madt : Bytes) : Nat → Prop where
  | first (h : sizeofMadtHeader < dwLength madt) : RecordAt madt sizeofMadtHeader
  | next {cur : Nat} (h : RecordAt madt cur) (hend : cur + recordSize madt cur < dwLength madt) :
      RecordAt madt (cur + recordSize madt cur)

def RecordFits (madt : Bytes) (cur : Nat) : Prop :=
  0 < recordSize madt cur ∧ cur + recordNeeds madt cur ≤ dwLength madt

def Within (madt : Bytes) (reads : Reads) : Prop :=
  ∀ r ∈ reads, r.1 + r.2 ≤ dwLength madt

/-- The loop ends, having read nothing behind the table's end. -/
def EndsWithin (madt : Bytes) (thisCpuID : Nat) (s : AcpiState) : Prop :=
  ∃ fuel result, processMADT madt thisCpuID fuel s = some result ∧ Within madt result.2

variable {madt : Bytes} {cur fuel thisCpuID : Nat} {s x : AcpiState} {reads : Reads}

theorem within_cons {r : Nat × Nat} :
    Within madt (r :: reads) ↔ r.1 + r.2 ≤ dwLength madt ∧ Within madt reads :=
  List.forall_mem_cons

theorem within_append {reads' : Reads} :
    Within madt (reads ++ reads') ↔ Within madt reads ∧ Within madt reads' :=
  List.forall_mem_append

def recordReads (madt : Bytes) (cur : Nat) (s : AcpiState) : Reads :=
  (cur, 1) :: (cur + 1, 1) :: (processRecord madt (recordType madt cur) (cur + 2) s).2

def afterRecord (madt : Bytes) (cur : Nat) (s : AcpiState) : AcpiState :=
  (processRecord madt (recordType madt cur) (cur + 2) s).1

theorem recordLoop_step (h : cur < dwLength madt) :
    recordLoop madt (fuel + 1) cur s =
      (recordLoop madt fuel (cur + recordSize madt cur) (afterRecord madt cur s)).map
        fun r => (r.1, recordReads madt cur s ++ r.2) := by
  have hcur : cur + 2 + load madt (cur + 1) 1 - 2 = cur + recordSize madt cur := by
    rw [recordSize]
    omega
  rw [recordLoop, if_pos h]
  dsimp only
  rw [hcur]
  show (match recordLoop madt fuel (cur + recordSize madt cur) (afterRecord madt cur s) with
    | none => none
    | some (s', reads) => _) = _
  cases recordLoop madt fuel (cur + recordSize madt cur) (afterRecord madt cur s) with
  | none => rfl
  | some r => rfl

theorem recordLoop_end (h : dwLength madt ≤ cur) :
    recordLoop madt (fuel + 1) cur s = some (s, []) := by
  rw [recordLoop, if_neg (Nat.not_lt.mpr h)]

/-- A record is read up to what is needed of it; of a processor that is not enabled only the
flags are, which are its last field. -/
theorem recordReads_within (madt : Bytes) (cur : Nat) (s : AcpiState) :
    Within madt (recordReads madt cur s) ↔ cur + recordNeeds madt cur ≤ dwLength madt := by
  rw [recordReads, within_cons, within_cons, processRecord, recordNeeds]
  split
  · rw [processLocalApic]
    dsimp only
    split
    · simp only [Within, List.mem_singleton, forall_eq]
      omega
    · simp only [Within, List.mem_cons, List.not_mem_nil, or_false, forall_eq_or_imp, forall_eq]
      omega
  · split
    · rw [processIoApic]
      simp only [Within, List.mem_cons, List.not_mem_nil, or_false, forall_eq_or_imp, forall_eq]
      omega
    · simp only [Within, List.not_mem_nil, false_implies, implies_true, and_true]
      omega

theorem recordLoop_stuck (h : cur < dwLength madt) (hzero : recordSize madt cur = 0) (fuel : Nat)
    (s : AcpiState) : recordLoop madt fuel cur s = none := by
  induction fuel generalizing s with
  | zero => rfl
  | succ fuel ih =>
    rw [recordLoop_step h, hzero, Nat.add_zero, ih]
    rfl

theorem RecordAt.lt (h : RecordAt madt cur) : cur < dwLength madt := by
  cases h with
  | first h => exact h
  | next _ hend => exact hend

def LoopWithin (madt : Bytes) (cur : Nat) (s : AcpiState) : Prop :=
  ∃ fuel r, recordLoop madt fuel cur s = some r ∧ Within madt r.2

theorem loopWithin_end (h : dwLength madt ≤ cur) : LoopWithin madt cur s :=
  ⟨1, (s, []), recordLoop_end h, fun _ hr => absurd hr List.not_mem_nil⟩

theorem loopWithin_step (h : cur < dwLength madt) :
    LoopWithin madt cur s ↔ RecordFits madt cur ∧
      LoopWithin madt (cur + recordSize madt cur) (afterRecord madt cur s) := by
  constructor
  · rintro ⟨fuel, r, hloop, hwithin⟩
    have hpos : 0 < recordSize madt cur := by
      refine Nat.pos_of_ne_zero fun hzero => ?_
      rw [recordLoop_stuck h hzero] at hloop
      cases hloop
    cases fuel with
    | zero => cases hloop
    | succ fuel =>
      rw [recordLoop_step h] at hloop
      obtain ⟨r', hrest, rfl⟩ := Option.map_eq_some_iff.mp hloop
      obtain ⟨hrecord, hreads⟩ := within_append.mp hwithin
      exact ⟨⟨hpos, (recordReads_within madt cur s).mp hrecord⟩, fuel, r', hrest, hreads⟩
  · rintro ⟨hfits, fuel, r, hloop, hwithin⟩
    refine ⟨fuel + 1, (r.1, recordReads madt cur s ++ r.2), ?_, ?_⟩
    · rw [recordLoop_step h, hloop]
      rfl
    · exact within_append.mpr ⟨(recordReads_within madt cur s).mpr hfits.2, hwithin⟩

theorem loopWithin_of_fits (hfits : ∀ c, RecordAt madt c → RecordFits madt c)
    (hcur : RecordAt madt cur ∨ dwLength madt ≤ cur) (s : AcpiState) : LoopWithin madt cur s := by
  -- on the bytes that are left: each record takes the cursor on
  induction hleft : dwLength madt - cur using Nat.strong_induction_on generalizing cur s with
  | _ left ih =>
    cases hcur with
    | inr hend => exact loopWithin_end hend
    | inl hat =>
      have hlt := hat.lt
      have hrecord := hfits cur hat
      have hnext : RecordAt madt (cur + recordSize madt cur) ∨
          dwLength madt ≤ cur + recordSize madt cur :=
        (Nat.lt_or_ge _ _).imp_left hat.next
      have hpos := hrecord.1
      exact (loopWithin_step hlt).mpr ⟨hrecord, ih _ (by omega) hnext _ rfl⟩

theorem loopWithin_at (h : LoopWithin madt sizeofMadtHeader s) (hcur : RecordAt madt cur) :
    ∃ x, LoopWithin madt cur x := by
  induction hcur with
  | first _ => exact ⟨s, h⟩
  | next hat _ ih =>
    obtain ⟨x, hx⟩ := ih
    exact ⟨_, ((loopWithin_step hat.lt).mp hx).2⟩

/-- The loop ends, having read nothing behind the table's end, exactly if every record that the
sizes lead to has a size and has within the table what is read of it. -/
theorem endsWithin_iff (madt : Bytes) (thisCpuID : Nat) (s : AcpiState)
    (hlength : sizeofMadtHeader ≤ dwLength madt) :
    EndsWithin madt thisCpuID s ↔ ∀ cur, RecordAt madt cur → RecordFits madt cur := by
  have hsize : sizeofMadtHeader = 44 := rfl
  have hloop : EndsWithin madt thisCpuID s ↔ LoopWithin madt sizeofMadtHeader s := by
    constructor
    · rintro ⟨fuel, result, hrun, hwithin⟩
      rw [processMADT] at hrun
      cases hr : recordLoop madt fuel sizeofMadtHeader s with
      | none =>
        rw [hr] at hrun
        cases hrun
      | some r =>
        rw [hr] at hrun
        cases hrun
        exact ⟨fuel, r, hr, (within_cons.mp hwithin).2⟩
    · rintro ⟨fuel, r, hr, hwithin⟩
      refine ⟨fuel, (markThisCpu thisCpuID r.1, (4, 4) :: r.2), ?_, ?_⟩
      · rw [processMADT, hr]
      · exact within_cons.mpr ⟨by omega, hwithin⟩
  rw [hloop]
  constructor
  · intro h cur hcur
    obtain ⟨x, hx⟩ := loopWithin_at h hcur
    exact ((loopWithin_step hcur.lt).mp hx).1
  · intro hfits
    refine loopWithin_of_fits hfits ?_ s
    exact (Nat.lt_or_ge sizeofMadtHeader (dwLength madt)).imp_left RecordAt.first

/-! A table with three records. -/

def madtWith (records : List Byte) : Bytes := fun i =>
  if i = 4 then BitVec.ofNat 8 (sizeofMadtHeader + records.length)
  else if i < sizeofMadtHeader then 0#8
  else records.getD (i - sizeofMadtHeader) 0#8

def bootAcpi : AcpiState where
  idealProcessorCount := 0
  activeProcessorCount := 0
  procInfo := fun _ => ⟨0, 0, false, false, false⟩
  ioApics := fun _ => ⟨0, 0, 0, false⟩
  ioApicIDs := fun _ => 0
  ioApicCount := 0

def smallMadt : Bytes := madtWith
  [0#8, 8#8, 1#8, 0#8, 1#8, 0#8, 0#8, 0#8, 0#8, 8#8, 2#8, 1#8, 1#8, 0#8, 0#8, 0#8,
    1#8, 12#8, 4#8, 0#8, 0#8, 0#8, 0xC0#8, 0xFE#8, 0#8, 0#8, 0#8, 0#8]

theorem recordAt_smallMadt (h : RecordAt smallMadt cur) : cur ∈ [44, 52, 60] := by
  have hsizes : recordSize smallMadt 44 = 8 ∧ recordSize smallMadt 52 = 8 ∧
      recordSize smallMadt 60 = 12 ∧ dwLength smallMadt = 72 := by decide
  induction h with
  | first _ => exact List.mem_cons_self
  | next _ hend ih =>
    simp only [List.mem_cons, List.not_mem_nil, or_false] at ih ⊢
    obtain rfl | rfl | rfl := ih
    · omega
    · omega
    · omega

theorem endsWithin_iff_smallMadt : EndsWithin smallMadt 0 bootAcpi := by
  refine (endsWithin_iff smallMadt 0 bootAcpi (by decide)).mpr fun cur hcur => ?_
  have hfits : ∀ c ∈ [44, 52, 60], 0 < recordSize smallMadt c ∧
      c + recordNeeds smallMadt c ≤ dwLength smallMadt := by decide
  exact hfits cur (recordAt_smallMadt hcur)

/-- A record of type 2 whose size is zero. -/
theorem record_without_size :
    ¬∀ (madt : Bytes) (thisCpuID : Nat) (s : AcpiState),
      sizeofMadtHeader ≤ dwLength madt → EndsWithin madt thisCpuID s := by
  intro hall
  obtain ⟨fuel, result, hrun, -⟩ := hall (madtWith [2#8, 0#8]) 0 bootAcpi (by decide)
  have hstuck : recordLoop (madtWith [2#8, 0#8]) fuel sizeofMadtHeader bootAcpi = none :=
    recordLoop_stuck (by decide) (by decide) fuel bootAcpi
  rw [processMADT, hstuck] at hrun
  cases hrun

end Ych.Acpi
