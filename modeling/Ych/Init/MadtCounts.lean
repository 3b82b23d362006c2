import Mathlib.Data.Finset.Card
import Ych.Init.KrInitSMP
import Ych.Init.ProcessMADT

/-! The counts that `ProcessMADT` keeps, one for each record, against the slots, one for each
ID. -/
namespace Ych.Acpi
open Words Bitmap ByteMemory
open Smp (MAX_SMP_PROCESSORS)

def MAX_IO_APICS : Nat := 256

/-- The records at these places are the whole of the table from `cur` on, and each is at least as
long as its type. -/
def RecordChain (madt : Bytes) : Nat → List Nat → Prop
  | cur, [] => cur = dwLength madt
  | cur, c :: places =>
    c = cur ∧ recordNeeds madt cur ≤ recordSize madt cur ∧
      RecordChain madt (cur + recordSize madt cur) places

def processorAt (madt : Bytes) (cur : Nat) : List Nat :=
  if recordType madt cur = KR_ACPI_MADT_RECORD_TYPE_PROCESSOR_LOCAL_APIC ∧
      hasFlag (load madt (cur + 4) 4) KR_ACPI_LAPIC_FLAGS_PROCESSOR_ENABLED = true then
    [load madt (cur + 3) 1]
  else []

def ioApicAt (madt : Bytes) (cur : Nat) : List Nat :=
  if recordType madt cur = KR_ACPI_MADT_RECORD_TYPE_IO_APIC then [load madt (cur + 2) 1] else []

def processorIDs (madt : Bytes) (places : List Nat) : List Nat := places.flatMap (processorAt madt)

def ioApicIDs (madt : Bytes) (places : List Nat) : List Nat := places.flatMap (ioApicAt madt)

def listedIoApics (s : AcpiState) : List Nat := (List.range s.ioApicCount).map s.ioApicIDs

structure CountsAgree (s : AcpiState) : Prop where
  processors : s.idealProcessorCount =
    ((Finset.range MAX_SMP_PROCESSORS).filter fun i => (s.procInfo i).e_v = true).card
  table : s.ioApicCount ≤ MAX_IO_APICS
  distinct : (listedIoApics s).Nodup
  names : ∀ id, id ∈ listedIoApics s ↔ id < MAX_IO_APICS ∧ (s.ioApics id).e_v = true

variable {madt : Bytes} {cur : Nat} {places procs ios : List Nat} {s : AcpiState}

/-- What the loop has made of records with these processors and I/O APICs. -/
structure Counted (procs ios : List Nat) (s : AcpiState) : Prop where
  ideal : s.idealProcessorCount = wrap32 procs.length
  slots : ∀ i, (s.procInfo i).e_v = true ↔ i ∈ procs
  count : s.ioApicCount = wrap32 ios.length
  ids : ∀ j < ios.length, ios[j]? = some (s.ioApicIDs j)
  ioSlots : ∀ i, (s.ioApics i).e_v = true ↔ i ∈ ios

theorem counted_boot : Counted [] [] bootAcpi :=
  ⟨rfl, fun _ => by simp [bootAcpi], rfl, fun j hj => absurd hj (Nat.not_lt_zero j),
    fun _ => by simp [bootAcpi]⟩

theorem wrap32_succ (n : Nat) : wrap32 (wrap32 n + 1) = wrap32 (n + 1) := by
  unfold wrap32
  omega

theorem Counted.processor (h : Counted procs ios s) (madt : Bytes) (c : Nat) :
    Counted (procs ++ processorAt madt c) ios
      (if recordType madt c = KR_ACPI_MADT_RECORD_TYPE_PROCESSOR_LOCAL_APIC then
        (processLocalApic madt (c + 2) s).1 else s) := by
  rw [processorAt]
  split
  · rename_i hrecord
    obtain ⟨htype, henabled⟩ := hrecord
    have hflag : ¬hasFlag (load madt (c + 2 + 2) 4) KR_ACPI_LAPIC_FLAGS_PROCESSOR_ENABLED = false :=
      fun hoff => Bool.noConfusion (henabled.symm.trans hoff)
    rw [if_pos htype, processLocalApic, if_neg hflag]
    refine ⟨?_, fun i => ?_, h.count, h.ids, h.ioSlots⟩
    · rw [List.length_append, List.length_singleton, ← wrap32_succ procs.length,
        ← h.ideal]
    · rw [List.mem_append, List.mem_singleton, ← h.slots i]
      dsimp only
      rw [Function.update_apply]
      split
      · rename_i heq
        exact iff_of_true rfl (Or.inr heq)
      · rename_i hne
        rw [or_iff_left hne]
  · rename_i hrecord
    rw [List.append_nil]
    split
    · rename_i htype
      have hflag :
          hasFlag (load madt (c + 2 + 2) 4) KR_ACPI_LAPIC_FLAGS_PROCESSOR_ENABLED = false :=
        Bool.eq_false_iff.mpr fun hon => hrecord ⟨htype, hon⟩
      rw [processLocalApic, if_pos hflag]
      exact h
    · exact h

theorem Counted.ioApic (h : Counted procs ios s) (hroom : ios.length < 2 ^ 32) (c : Nat) :
    Counted procs (ios ++ [load madt c 1]) (processIoApic madt c s).1 := by
  have hcount : s.ioApicCount = ios.length := h.count.trans (wrap32_of_lt hroom)
  refine ⟨h.ideal, h.slots, ?_, fun j hj => ?_, fun i => ?_⟩
  · rw [List.length_append, List.length_singleton, ← wrap32_succ ios.length, ← h.count]
    rfl
  · rw [List.length_append, List.length_singleton] at hj
    show _ = some (Function.update s.ioApicIDs s.ioApicCount (load madt c 1) j)
    rw [hcount, Function.update_apply]
    split
    · rename_i heq
      rw [heq, List.getElem?_append_right (Nat.le_refl _), Nat.sub_self, List.getElem?_cons_zero]
    · rename_i hne
      have hlt : j < ios.length := by omega
      rw [List.getElem?_append_left hlt]
      exact h.ids j hlt
  · rw [List.mem_append, List.mem_singleton, ← h.ioSlots i]
    show (Function.update s.ioApics (load madt c 1) _ i).e_v = true ↔ _
    rw [Function.update_apply]
    split
    · rename_i heq
      exact iff_of_true rfl (Or.inr heq)
    · rename_i hne
      rw [or_iff_left hne]

theorem Counted.record (h : Counted procs ios s) (hroom : ios.length < 2 ^ 32) (madt : Bytes)
    (c : Nat) :
    Counted (procs ++ processorAt madt c) (ios ++ ioApicAt madt c) (afterRecord madt c s) := by
  rw [afterRecord, processRecord]
  by_cases hproc : recordType madt c = KR_ACPI_MADT_RECORD_TYPE_PROCESSOR_LOCAL_APIC
  · have hio : ioApicAt madt c = [] := by
      rw [ioApicAt, hproc]
      rfl
    have hstep := h.processor madt c
    rw [if_pos hproc] at hstep ⊢
    rw [hio, List.append_nil]
    exact hstep
  · have hnone : processorAt madt c = [] := if_neg fun hboth => hproc hboth.1
    rw [if_neg hproc, hnone, List.append_nil, ioApicAt]
    split
    · exact h.ioApic hroom (c + 2)
    · rw [List.append_nil]
      exact h

theorem recordNeeds_pos (madt : Bytes) (cur : Nat) : 2 ≤ recordNeeds madt cur := by
  unfold recordNeeds
  split
  · decide
  · split
    · decide
    · exact Nat.le_refl 2

theorem RecordChain.length_le (h : RecordChain madt cur places) :
    cur + places.length ≤ dwLength madt := by
  induction places generalizing cur with
  | nil => exact Nat.le_of_eq h
  | cons c places ih =>
    have hpos := recordNeeds_pos madt cur
    have hrest := ih h.2.2
    have hsize := h.2.1
    rw [List.length_cons]
    omega

theorem length_flatMap_le_length {g : Nat → List Nat} (h : ∀ c, (g c).length ≤ 1)
    (places : List Nat) : (places.flatMap g).length ≤ places.length := by
  induction places with
  | nil => exact Nat.le_refl 0
  | cons c places ih =>
    have hone := h c
    rw [List.flatMap_cons, List.length_append, List.length_cons]
    omega

theorem ioApicIDs_length (madt : Bytes) (places : List Nat) :
    (ioApicIDs madt places).length ≤ places.length :=
  length_flatMap_le_length (fun c => by rw [ioApicAt]; split <;> simp) places

theorem processorIDs_length (madt : Bytes) (places : List Nat) :
    (processorIDs madt places).length ≤ places.length :=
  length_flatMap_le_length (fun c => by rw [processorAt]; split <;> simp) places

/-- The loop over a chain of records: by induction on the chain, record by record. -/
theorem recordLoop_chain (hchain : RecordChain madt cur places) (h : Counted procs ios s)
    (hroom : ios.length + places.length < 2 ^ 32) :
    ∃ x reads, Counted (procs ++ processorIDs madt places) (ios ++ ioApicIDs madt places) x ∧
      ∀ fuel, recordLoop madt fuel cur s =
        if fuel ≤ places.length then none else some (x, reads) := by
  induction places generalizing cur procs ios s with
  | nil =>
    refine ⟨s, [], ?_, fun fuel => ?_⟩
    · rw [processorIDs, ioApicIDs, List.flatMap_nil, List.flatMap_nil, List.append_nil,
        List.append_nil]
      exact h
    · cases fuel with
      | zero => rfl
      | succ fuel => exact recordLoop_end (Nat.le_of_eq hchain.symm)
  | cons c places ih =>
    have hle := hchain.length_le
    obtain ⟨rfl, hsize, hrest⟩ := hchain
    have hlt : c < dwLength madt := by
      rw [List.length_cons] at hle
      omega
    have hios := ioApicIDs_length madt [c]
    rw [ioApicIDs, List.flatMap_singleton, List.length_singleton] at hios
    rw [List.length_cons] at hroom
    have hstep := h.record (by omega) madt c
    obtain ⟨x, reads, hcounted, hloop⟩ := ih hrest hstep (by rw [List.length_append]; omega)
    refine ⟨x, recordReads madt c s ++ reads, ?_, fun fuel => ?_⟩
    · rw [processorIDs, ioApicIDs, List.flatMap_cons, List.flatMap_cons, ← List.append_assoc,
        ← List.append_assoc]
      exact hcounted
    · cases fuel with
      | zero => rfl
      | succ fuel =>
        rw [recordLoop_step hlt, hloop, List.length_cons]
        by_cases hfuel : fuel ≤ places.length
        · rw [if_pos hfuel, if_pos (Nat.succ_le_succ hfuel)]
          rfl
        · rw [if_neg hfuel, if_neg fun h => hfuel (Nat.le_of_succ_le_succ h)]
          rfl

theorem processorIDs_lt {id : Nat} (h : id ∈ processorIDs madt places) : id < 256 := by
  obtain ⟨c, -, hid⟩ := List.mem_flatMap.mp h
  rw [processorAt] at hid
  split at hid
  · rw [List.mem_singleton.mp hid]
    exact load_lt madt (c + 3) 1
  · exact absurd hid List.not_mem_nil

theorem ioApicIDs_lt {id : Nat} (h : id ∈ ioApicIDs madt places) : id < 256 := by
  obtain ⟨c, -, hid⟩ := List.mem_flatMap.mp h
  rw [ioApicAt] at hid
  split at hid
  · rw [List.mem_singleton.mp hid]
    exact load_lt madt (c + 2) 1
  · exact absurd hid List.not_mem_nil

theorem toFinset_card_eq_length {l : List Nat} : l.toFinset.card = l.length ↔ l.Nodup :=
  Multiset.toFinset_card_eq_card_iff_nodup (m := (l : Multiset Nat))

theorem Counted.listed (h : Counted procs ios s) (hroom : ios.length < 2 ^ 32) :
    listedIoApics s = ios := by
  have hcount : s.ioApicCount = ios.length := h.count.trans (wrap32_of_lt hroom)
  rw [listedIoApics, hcount]
  apply List.ext_getElem?
  intro j
  by_cases hj : j < ios.length
  · rw [h.ids j hj, List.getElem?_map, List.getElem?_range hj]
    rfl
  · rw [List.getElem?_eq_none (by simpa using hj), List.getElem?_eq_none (by simpa using hj)]

theorem Counted.agree_iff (h : Counted procs ios s) (hprocs : ∀ id ∈ procs, id < 256)
    (hios : ∀ id ∈ ios, id < 256) (hprocRoom : procs.length < 2 ^ 32)
    (hioRoom : ios.length < 2 ^ 32) : CountsAgree s ↔ procs.Nodup ∧ ios.Nodup := by
  have hslots : ((Finset.range MAX_SMP_PROCESSORS).filter fun i => (s.procInfo i).e_v = true) =
      procs.toFinset := by
    ext i
    rw [Finset.mem_filter, Finset.mem_range, h.slots i, List.mem_toFinset]
    exact and_iff_right_of_imp (hprocs i)
  have hideal : s.idealProcessorCount = procs.length := h.ideal.trans (wrap32_of_lt hprocRoom)
  have hlisted := h.listed hioRoom
  constructor
  · intro hagree
    have hcard := hagree.processors
    have hdistinct := hagree.distinct
    rw [hslots, hideal] at hcard
    rw [hlisted] at hdistinct
    exact ⟨toFinset_card_eq_length.mp hcard.symm, hdistinct⟩
  · rintro ⟨hprocNodup, hioNodup⟩
    refine ⟨?_, ?_, ?_, fun id => ?_⟩
    · rw [hslots, hideal, toFinset_card_eq_length.mpr hprocNodup]
    · have hsub : ios.toFinset ⊆ Finset.range 256 := fun id hid =>
        Finset.mem_range.mpr (hios id (List.mem_toFinset.mp hid))
      have hcard := Finset.card_le_card hsub
      rw [toFinset_card_eq_length.mpr hioNodup, Finset.card_range] at hcard
      rw [h.count, wrap32_of_lt hioRoom]
      exact hcard
    · rw [hlisted]
      exact hioNodup
    · rw [hlisted, h.ioSlots id]
      exact (and_iff_right_of_imp (hios id)).symm

theorem countsAgree_markThisCpu (thisCpuID : Nat) (s : AcpiState) :
    CountsAgree (markThisCpu thisCpuID s) ↔ CountsAgree s := by
  have hslots : ∀ i, ((markThisCpu thisCpuID s).procInfo i).e_v = (s.procInfo i).e_v := by
    intro i
    show (Function.update s.procInfo thisCpuID _ i).e_v = _
    rw [Function.update_apply]
    split
    · rename_i heq
      rw [heq]
    · rfl
  constructor
  · rintro ⟨hprocs, htable, hdistinct, hnames⟩
    simp only [hslots] at hprocs
    exact ⟨hprocs, htable, hdistinct, hnames⟩
  · rintro ⟨hprocs, htable, hdistinct, hnames⟩
    refine ⟨?_, htable, hdistinct, hnames⟩
    simp only [hslots]
    exact hprocs

/-- `ProcessMADT` gets to its end on a chain of records, and the counts agree with the slots then
exactly if no two enabled processors, and no two I/O APICs, have one ID. -/
theorem countsAgree_iff (madt : Bytes) (thisCpuID : Nat) (places : List Nat)
    (hchain : RecordChain madt sizeofMadtHeader places) :
    (∃ fuel result, processMADT madt thisCpuID fuel bootAcpi = some result ∧
      CountsAgree result.1) ↔
      (processorIDs madt places).Nodup ∧ (ioApicIDs madt places).Nodup := by
  have hlength := hchain.length_le
  have hlt := dwLength_lt madt
  have hprocs := processorIDs_length madt places
  have hios := ioApicIDs_length madt places
  obtain ⟨x, reads, hcounted, hloop⟩ := recordLoop_chain hchain counted_boot
    (by rw [List.length_nil]; omega)
  have hagree := hcounted.agree_iff (fun id => processorIDs_lt) (fun id => ioApicIDs_lt)
    (by rw [List.nil_append]; omega) (by rw [List.nil_append]; omega)
  rw [List.nil_append, List.nil_append] at hagree
  rw [← hagree, ← countsAgree_markThisCpu thisCpuID]
  constructor
  · rintro ⟨fuel, result, hrun, hresult⟩
    rw [processMADT, hloop] at hrun
    by_cases hfuel : fuel ≤ places.length
    · rw [if_pos hfuel] at hrun
      cases hrun
    · rw [if_neg hfuel] at hrun
      cases hrun
      exact hresult
  · intro hresult
    refine ⟨places.length + 1, (markThisCpu thisCpuID x, (4, 4) :: reads), ?_, hresult⟩
    rw [processMADT, hloop, if_neg (Nat.not_succ_le_self _)]

theorem recordChain_smallMadt : RecordChain smallMadt sizeofMadtHeader [44, 52, 60] :=
  ⟨rfl, by decide, rfl, by decide, rfl, by decide, rfl⟩

theorem countsAgree_iff_smallMadt : ∃ fuel result,
    processMADT smallMadt 0 fuel bootAcpi = some result ∧ CountsAgree result.1 :=
  (countsAgree_iff smallMadt 0 [44, 52, 60] recordChain_smallMadt).mpr (by decide)

def processorTwice : Bytes :=
  madtWith [0#8, 8#8, 1#8, 0#8, 1#8, 0#8, 0#8, 0#8, 0#8, 8#8, 1#8, 0#8, 1#8, 0#8, 0#8, 0#8]

/-- The count is two then, and one slot is valid. -/
theorem processor_counted_twice :
    ¬∀ (madt : Bytes) (thisCpuID : Nat) (places : List Nat),
      RecordChain madt sizeofMadtHeader places →
      ∃ fuel result, processMADT madt thisCpuID fuel bootAcpi = some result ∧
        CountsAgree result.1 := by
  intro hall
  have hchain : RecordChain processorTwice sizeofMadtHeader [44, 52] :=
    ⟨rfl, by decide, rfl, by decide, rfl⟩
  obtain ⟨x, reads, hcounted, hloop⟩ := recordLoop_chain hchain counted_boot (by decide)
  obtain ⟨fuel, result, hrun, hresult⟩ := hall processorTwice 0 [44, 52] hchain
  rw [processMADT, hloop] at hrun
  by_cases hfuel : fuel ≤ 2
  · rw [List.length_cons, List.length_cons, List.length_nil, if_pos hfuel] at hrun
    cases hrun
  · rw [List.length_cons, List.length_cons, List.length_nil, if_neg hfuel] at hrun
    cases hrun
    rw [countsAgree_markThisCpu] at hresult
    have hagree := hcounted.agree_iff (fun id => processorIDs_lt) (fun id => ioApicIDs_lt)
      (by decide) (by decide)
    exact absurd (hagree.mp hresult).1 (by decide)

end Ych.Acpi
