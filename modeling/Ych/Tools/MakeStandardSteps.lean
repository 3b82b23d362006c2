import Ych.Tools.ProtectiveMbr

/-! The file operations of the standard disk layout, any of which may fail, and what is open or
allocated when the routine returns. -/
namespace Ych.Imgtool
open Words

def ROUTINE_OK : Nat := 0
def ROUTINE_FAIL : Nat := 1

def MBR_PARTITION_TABLE_OFFSET : Nat := 0x01BE
def MBR_SIGNATURE_OFFSET : Nat := 0x01FE
def MBR_SIGNATURE : Nat := 0xAA55

inductive MakeStdSite where
  | openDisk
  | truncateDisk
  | seekMbrTable
  | writeMbr
  | seekMbrSignature
  | writeMbrSignature
  | allocateEntries
  | seekHeader
  | writeHeader
  | seekMirrorHeader
  | writeMirrorHeader
  | seekEntries
  | writeEntries
  | seekMirrorEntries
  | writeMirrorEntries
  deriving DecidableEq

inductive DiskData where
  | mbrEntry (entry : MbrEntry)
  | signature (value : Nat)
  | header (header : GptPartitionHeader)
  | entries (partEFI partOS : GptPartitionEntry)

inductive FileCall where
  | fopen (path : String)
  | ftruncate (length : Nat)
  | fseek (offset : Nat)
  | fwrite (data : DiskData)
  | malloc (size : Nat)

/-- Whether the two globals are set, how many files are open and buffers allocated, and what was
called and printed. -/
structure MakeStdState where
  pDisk : Bool
  pPartitionEntryArray : Bool
  openFiles : Nat
  buffers : Nat
  calls : List FileCall
  printed : List String

def idle (openFiles buffers : Nat) : MakeStdState := ⟨false, false, openFiles, buffers, [], []⟩

variable (succeeds : MakeStdSite → Bool) (s : MakeStdState)

def MakeStdState.print (text : String) : MakeStdState := { s with printed := s.printed ++ [text] }

def MakeStdState.called (call : FileCall) : MakeStdState := { s with calls := s.calls ++ [call] }

def closeDisk : MakeStdState :=
  if s.pDisk then { s with pDisk := false, openFiles := s.openFiles - 1 } else s

def freeEntries : MakeStdState :=
  if s.pPartitionEntryArray then
    { s with pPartitionEntryArray := false, buffers := s.buffers - 1 }
  else s

def makeStdAbortSafely : Nat × MakeStdState := (ROUTINE_FAIL, freeEntries (closeDisk s))

structure MakeStdStep where
  site : MakeStdSite
  call : FileCall
  text : String
  aborts : Bool

def FileCall.effect : FileCall → MakeStdState → MakeStdState
  | .malloc _, s => { s with pPartitionEntryArray := true, buffers := s.buffers + 1 }
  | _, s => s

def runSteps : List MakeStdStep → MakeStdState → Nat × MakeStdState
  | [], s => (ROUTINE_OK, (makeStdAbortSafely s).2)
  | step :: steps, s =>
    let s := s.called step.call
    if succeeds step.site then runSteps steps (step.call.effect s)
    else if step.aborts then makeStdAbortSafely (s.print step.text)
    else runSteps steps (s.print step.text)

section Steps
variable (path : String) (iDiskSize iBlockSize : Int) (i : StandardImage)

def makeStdText (text : String) : String := "Imgtool.MakeStandard: " ++ text

def blockAddress (lba : Nat) : Nat := wrap64 (lba * toSize iBlockSize)

/-- What follows the opening of the disk. The text about the signature has its value in place of
its offset; the failure of the first write of the entries is only printed. -/
def makeStdSteps : List MakeStdStep :=
  [ ⟨.truncateDisk, .ftruncate (blockAddress iBlockSize i.blockCount),
      makeStdText s!"Failed to truncate disk `{path}` up to {iDiskSize} MiB.\n", true⟩,
    ⟨.seekMbrTable, .fseek MBR_PARTITION_TABLE_OFFSET,
      makeStdText ("Failed to seek to the MBR Partition Table at offset 0x1BE into disk " ++
        s!"`{path}`.\n"), true⟩,
    ⟨.writeMbr, .fwrite (.mbrEntry (protectiveMbr i.blockCount)),
      makeStdText s!"Failed to write the protective MBR onto disk `{path}`.\n", true⟩,
    ⟨.seekMbrSignature, .fseek MBR_SIGNATURE_OFFSET,
      makeStdText ("Failed to seek to the MBR signature at offset 0xAA55 into disk " ++
        s!"`{path}`.\n"), true⟩,
    ⟨.writeMbrSignature, .fwrite (.signature MBR_SIGNATURE),
      makeStdText s!"Failed to write the MBR signature onto disk `{path}`.\n", true⟩,
    ⟨.allocateEntries, .malloc (i.header.noPartitionEntries * i.header.bytesPerPartitionEntry),
      "Failed to allocate memory for partition entry array representation.\n", true⟩,
    ⟨.seekHeader, .fseek (blockAddress iBlockSize i.header.selfLBA),
      makeStdText "Failed to seek to primary GPT partition table header on disk.", true⟩,
    ⟨.writeHeader, .fwrite (.header i.header),
      makeStdText "Failed to write the primary GPT partition table header to disk.", true⟩,
    ⟨.seekMirrorHeader, .fseek (blockAddress iBlockSize i.alternate.selfLBA),
      makeStdText "Failed to seek to mirror GPT partition table header on disk.", true⟩,
    ⟨.writeMirrorHeader, .fwrite (.header i.alternate),
      makeStdText "Failed to write the mirror GPT partition table header to disk.", true⟩,
    ⟨.seekEntries, .fseek (blockAddress iBlockSize i.header.partitionTableLBA),
      makeStdText "Failed to seek to partition entry array on disk.", true⟩,
    ⟨.writeEntries, .fwrite (.entries i.partEFI i.partOS),
      makeStdText "Failed to write partition entry array to disk.", false⟩,
    ⟨.seekMirrorEntries, .fseek (blockAddress iBlockSize i.alternate.partitionTableLBA),
      makeStdText "Failed to seek to mirror partition entry array on disk.", true⟩,
    ⟨.writeMirrorEntries, .fwrite (.entries i.partEFI i.partOS),
      makeStdText "Failed to write mirror partition entry array to disk.", true⟩]

/-- The whole routine, `none` for the division by zero: the value returned and the state then. -/
def makeStandardRun : Option (Nat × MakeStdState) :=
  match routineMakeStandard iDiskSize iBlockSize with
  | .fail text => some (ROUTINE_FAIL, s.print (makeStdText text))
  | .divisionByZero => none
  | .image i =>
    let s := s.called (.fopen path)
    if succeeds .openDisk then
      some (runSteps succeeds (makeStdSteps path iDiskSize iBlockSize i)
        { s with pDisk := true, openFiles := s.openFiles + 1 })
    else some (ROUTINE_FAIL, s.print (makeStdText s!"Failed to open disk `{path}`!\n"))

end Steps

structure MakeStdState.Released (s : MakeStdState) (openFiles buffers : Nat) : Prop where
  pDisk : s.pDisk = false
  pPartitionEntryArray : s.pPartitionEntryArray = false
  openFiles : s.openFiles = openFiles
  buffers : s.buffers = buffers

structure MakeStdState.Holds (s : MakeStdState) (openFiles buffers : Nat) : Prop where
  openFiles : s.openFiles = openFiles + s.pDisk.toNat
  buffers : s.buffers = buffers + s.pPartitionEntryArray.toNat

def MakeStdStep.allocates (step : MakeStdStep) : Bool :=
  match step.call with
  | .malloc _ => true
  | _ => false

/-- It is not reported as a success that an operation failed, and everything is released on the
return. -/
def ReportsFailures (succeeds : MakeStdSite → Bool) (openFiles buffers : Nat)
    (r : Nat × MakeStdState) : Prop :=
  (r.1 = ROUTINE_OK → ∀ site, succeeds site = true) ∧ r.2.Released openFiles buffers

def MakeStdAccepted (iDiskSize iBlockSize : Int) : Prop :=
  MINIMUM_DISK_SIZE_MIB ≤ iDiskSize ∧ ¬ (0 < iBlockSize ∧ iBlockSize.tmod 512 ≠ 0) ∧
    toSize iBlockSize ≠ 0

instance (iDiskSize iBlockSize : Int) : Decidable (MakeStdAccepted iDiskSize iBlockSize) :=
  inferInstanceAs (Decidable (_ ∧ _ ∧ _))

variable {succeeds} {s} {openFiles buffers : Nat} {path : String} {iDiskSize iBlockSize : Int}
  {i : StandardImage} {steps : List MakeStdStep}

theorem closeDisk_holds (h : s.Holds openFiles buffers) :
    (closeDisk s).Holds openFiles buffers ∧ (closeDisk s).pDisk = false := by
  have hfiles := h.openFiles
  rw [closeDisk]
  cases hdisk : s.pDisk with
  | true =>
    rw [hdisk] at hfiles
    exact ⟨⟨congrArg (· - 1) hfiles, h.buffers⟩, rfl⟩
  | false => exact ⟨h, hdisk⟩

theorem freeEntries_holds (h : s.Holds openFiles buffers) :
    (freeEntries s).Holds openFiles buffers ∧ (freeEntries s).pPartitionEntryArray = false ∧
      (freeEntries s).pDisk = s.pDisk := by
  have hbuffers := h.buffers
  rw [freeEntries]
  cases hentries : s.pPartitionEntryArray with
  | true =>
    rw [hentries] at hbuffers
    exact ⟨⟨h.openFiles, congrArg (· - 1) hbuffers⟩, rfl, rfl⟩
  | false => exact ⟨h, hentries, rfl⟩

theorem makeStdAbortSafely_released (h : s.Holds openFiles buffers) :
    (makeStdAbortSafely s).2.Released openFiles buffers := by
  obtain ⟨hclosed, hdisk⟩ := closeDisk_holds h
  obtain ⟨hfreed, hentries, hkept⟩ := freeEntries_holds hclosed
  have hnull : (freeEntries (closeDisk s)).pDisk = false := hkept.trans hdisk
  have hfiles := hfreed.openFiles
  have hbuffers := hfreed.buffers
  rw [hnull] at hfiles
  rw [hentries] at hbuffers
  exact ⟨hnull, hentries, hfiles, hbuffers⟩

theorem effect_holds {step : MakeStdStep} (h : s.Holds openFiles buffers)
    (honce : s.pPartitionEntryArray.toNat + step.allocates.toNat ≤ 1) :
    (step.call.effect s).Holds openFiles buffers ∧
      (step.call.effect s).pPartitionEntryArray.toNat ≤
        s.pPartitionEntryArray.toNat + step.allocates.toNat := by
  rw [MakeStdStep.allocates] at honce ⊢
  cases hcall : step.call with
  | malloc size =>
    rw [hcall] at honce
    have hnull : s.pPartitionEntryArray.toNat = 0 := by simpa using honce
    have hbuffers := h.buffers
    rw [hnull] at hbuffers
    exact ⟨⟨h.openFiles, congrArg (· + 1) hbuffers⟩, Nat.le_add_left _ _⟩
  | fopen path => exact ⟨h, Nat.le_refl _⟩
  | ftruncate length => exact ⟨h, Nat.le_refl _⟩
  | fseek offset => exact ⟨h, Nat.le_refl _⟩
  | fwrite data => exact ⟨h, Nat.le_refl _⟩

/-- Whatever fails, the end of the steps finds as much open and allocated as the globals say, as
long as the entries are allocated only once. -/
theorem runSteps_released (steps : List MakeStdStep) (h : s.Holds openFiles buffers)
    (honce : s.pPartitionEntryArray.toNat + steps.countP MakeStdStep.allocates ≤ 1) :
    (runSteps succeeds steps s).2.Released openFiles buffers := by
  induction steps generalizing s with
  | nil => exact makeStdAbortSafely_released h
  | cons step steps ih =>
    have hcalled : (s.called step.call).Holds openFiles buffers := ⟨h.openFiles, h.buffers⟩
    have hprinted : ((s.called step.call).print step.text).Holds openFiles buffers :=
      ⟨h.openFiles, h.buffers⟩
    have hcount : s.pPartitionEntryArray.toNat +
        (steps.countP MakeStdStep.allocates + step.allocates.toNat) ≤ 1 := by
      rw [List.countP_cons] at honce
      cases hstep : step.allocates <;> simpa [hstep] using honce
    rw [runSteps]
    by_cases hsucceeds : succeeds step.site
    · obtain ⟨hheld, hgrows⟩ := @effect_holds _ _ _ step hcalled (Nat.le_trans
        (Nat.add_le_add_left (Nat.le_add_left _ _) _) hcount)
      rw [if_pos hsucceeds]
      refine ih hheld (Nat.le_trans (Nat.add_le_add_right hgrows _) ?_)
      rw [Nat.add_assoc, Nat.add_comm step.allocates.toNat]
      exact hcount
    · rw [if_neg hsucceeds]
      by_cases haborts : step.aborts
      · rw [if_pos haborts]
        exact makeStdAbortSafely_released hprinted
      · rw [if_neg haborts]
        exact ih hprinted (Nat.le_trans (Nat.add_le_add_left (Nat.le_add_right _ _) _) hcount)

theorem runSteps_ok_iff (steps : List MakeStdStep) (s : MakeStdState) :
    (runSteps succeeds steps s).1 = ROUTINE_OK ↔
      ∀ step ∈ steps, step.aborts = true → succeeds step.site = true := by
  induction steps generalizing s with
  | nil => simp [runSteps]
  | cons step steps ih =>
    rw [List.forall_mem_cons, runSteps]
    by_cases hsucceeds : succeeds step.site
    · rw [if_pos hsucceeds, ih]
      simp [hsucceeds]
    · rw [if_neg hsucceeds]
      by_cases haborts : step.aborts
      · rw [if_pos haborts]
        simp [hsucceeds, haborts, makeStdAbortSafely, ROUTINE_FAIL, ROUTINE_OK]
      · rw [if_neg haborts, ih]
        simp [haborts]

theorem leaving_sites (site : MakeStdSite) :
    (site, true) ∈ (makeStdSteps path iDiskSize iBlockSize i).map
        (fun step => (step.site, step.aborts)) ↔
      site ≠ .openDisk ∧ site ≠ .writeEntries := by
  have hsites : (makeStdSteps path iDiskSize iBlockSize i).map
      (fun step => (step.site, step.aborts)) =
      [(.truncateDisk, true), (.seekMbrTable, true), (.writeMbr, true), (.seekMbrSignature, true),
        (.writeMbrSignature, true), (.allocateEntries, true), (.seekHeader, true),
        (.writeHeader, true), (.seekMirrorHeader, true), (.writeMirrorHeader, true),
        (.seekEntries, true), (.writeEntries, false), (.seekMirrorEntries, true),
        (.writeMirrorEntries, true)] := rfl
  rw [hsites]
  cases site <;> decide

theorem makeStdSteps_ok_iff :
    (∀ step ∈ makeStdSteps path iDiskSize iBlockSize i,
        step.aborts = true → succeeds step.site = true) ↔
      ∀ site, site ≠ .openDisk → site ≠ .writeEntries → succeeds site = true := by
  constructor
  · intro h site hopen hwrite
    obtain ⟨step, hstep, hsame⟩ := List.mem_map.mp ((leaving_sites site).mpr ⟨hopen, hwrite⟩)
    obtain ⟨rfl, haborts⟩ := Prod.mk.inj hsame
    exact h step hstep haborts
  · intro h step hstep haborts
    have hleaves := (leaving_sites step.site).mp
      (List.mem_map.mpr ⟨step, hstep, Prod.ext rfl haborts⟩)
    exact h step.site hleaves.1 hleaves.2

theorem routineMakeStandard_image (h : MakeStdAccepted iDiskSize iBlockSize) :
    routineMakeStandard iDiskSize iBlockSize = .image (standardImage iDiskSize iBlockSize) := by
  obtain ⟨hmin, hsectors, hnonzero⟩ := h
  rw [routineMakeStandard, if_neg (not_lt.mpr hmin), if_neg hsectors, if_neg hnonzero]

theorem accepted_of_image (h : routineMakeStandard iDiskSize iBlockSize = .image i) :
    MakeStdAccepted iDiskSize iBlockSize := by
  unfold routineMakeStandard at h
  split_ifs at h with hmin hsectors hzero
  exact ⟨not_lt.mp hmin, hsectors, hzero⟩

theorem routineFail_ne_ok : ROUTINE_FAIL ≠ ROUTINE_OK := by decide

theorem makeStandardRun_refused (h : ¬ MakeStdAccepted iDiskSize iBlockSize)
    {r : Nat × MakeStdState}
    (hrun : makeStandardRun succeeds (idle openFiles buffers) path iDiskSize iBlockSize =
      some r) : r.1 = ROUTINE_FAIL ∧ r.2.Released openFiles buffers := by
  rw [makeStandardRun] at hrun
  cases hroutine : routineMakeStandard iDiskSize iBlockSize with
  | fail text =>
    rw [hroutine] at hrun
    obtain rfl := Option.some.inj hrun
    exact ⟨rfl, rfl, rfl, rfl, rfl⟩
  | divisionByZero =>
    rw [hroutine] at hrun
    cases hrun
  | image i => exact absurd (accepted_of_image hroutine) h

theorem makeStandardRun_accepted (succeeds : MakeStdSite → Bool) (openFiles buffers : Nat)
    (path : String) (h : MakeStdAccepted iDiskSize iBlockSize) :
    ∃ r, makeStandardRun succeeds (idle openFiles buffers) path iDiskSize iBlockSize = some r ∧
      r.2.Released openFiles buffers ∧
      (r.1 = ROUTINE_OK ↔ ∀ site, site ≠ .writeEntries → succeeds site = true) := by
  rw [makeStandardRun, routineMakeStandard_image h]
  by_cases hopen : succeeds .openDisk
  · refine ⟨_, if_pos hopen, runSteps_released _ ⟨rfl, rfl⟩ (Nat.le_refl 1), ?_⟩
    rw [runSteps_ok_iff, makeStdSteps_ok_iff]
    refine forall_congr' fun site => ?_
    by_cases hsite : site = .openDisk
    · simp [hsite, hopen]
    · simp [hsite]
  · refine ⟨_, if_neg hopen, ⟨rfl, rfl, rfl, rfl⟩, ?_⟩
    exact iff_of_false routineFail_ne_ok fun hall => hopen (hall .openDisk (by decide))

/-- A failure is reported and everything released, unless the first write of the entries is the
only operation that fails. -/
theorem makeStandardRun_reports_iff (succeeds : MakeStdSite → Bool) (openFiles buffers : Nat)
    (path : String) (iDiskSize iBlockSize : Int) :
    (∀ r, makeStandardRun succeeds (idle openFiles buffers) path iDiskSize iBlockSize = some r →
        ReportsFailures succeeds openFiles buffers r) ↔
      ¬ (MakeStdAccepted iDiskSize iBlockSize ∧ succeeds .writeEntries = false ∧
        ∀ site, site ≠ .writeEntries → succeeds site = true) := by
  by_cases haccepted : MakeStdAccepted iDiskSize iBlockSize
  · obtain ⟨r, hrun, hreleased, hok⟩ :=
      makeStandardRun_accepted succeeds openFiles buffers path haccepted
    rw [hrun]
    simp only [Option.some.injEq, forall_eq', ReportsFailures, hreleased, and_true, hok,
      haccepted, true_and]
    constructor
    · rintro hreports ⟨hwrite, hall⟩
      exact absurd (hreports hall .writeEntries) (by simp [hwrite])
    · intro hnot hall site
      by_cases hsite : site = .writeEntries
      · by_contra hfails
        exact hnot ⟨by simpa [hsite] using hfails, hall⟩
      · exact hall site hsite
  · refine iff_of_true (fun r hrun => ?_) fun h => haccepted h.1
    obtain ⟨hfail, hreleased⟩ := makeStandardRun_refused haccepted hrun
    exact ⟨fun hok => absurd (hfail.symm.trans hok) routineFail_ne_ok, hreleased⟩

/-- A disk whose entries could not be written is reported as a success. -/
theorem failedWrite_reported_ok :
    ¬ ∀ (succeeds : MakeStdSite → Bool) (openFiles buffers : Nat) (path : String)
      (iDiskSize iBlockSize : Int) (r : Nat × MakeStdState),
      makeStandardRun succeeds (idle openFiles buffers) path iDiskSize iBlockSize = some r →
      ReportsFailures succeeds openFiles buffers r := by
  intro h
  let succeeds : MakeStdSite → Bool := fun site => decide (site ≠ .writeEntries)
  have haccepted : MakeStdAccepted 128 512 := by decide
  obtain ⟨r, hrun, _, hok⟩ := makeStandardRun_accepted succeeds 0 0 "disk.img" haccepted
  have hresult : r.1 = ROUTINE_OK := hok.mpr fun site hsite => decide_eq_true hsite
  exact absurd ((h succeeds 0 0 "disk.img" 128 512 r hrun).1 hresult .writeEntries) (by decide)

end Ych.Imgtool
