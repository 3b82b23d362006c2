import Ych.Init.KrInitInt
import Ych.Intmgmt.IOAPIC
import Ych.Intmgmt.IRQAldist

/-! The interrupts of a running system: vectors offered to drivers, I/O APICs redirected to them one
register write at a time, and the local APICs that are sent them meanwhile and accept them later. -/
namespace Ych.Intmgmt
open Bitmap CPU InService Init RoundRobin Runs

def IRQMASK : BitVec 64 := 1 <<< 16

def setEnableIRQ (table : IoApicTable) (devices : IoApicDevices) (irq : Nat) (bEnable : Bool) :
    Bool × List MmioWrite :=
  match findIoApicForIRQ table irq with
  | none => (false, [])
  | some ioApic =>
    let regidx := redirRegidx ioApic irq
    let redirEntry := entryOf devices ioApic irq
    let redirEntry := if bEnable then redirEntry &&& ~~~IRQMASK else redirEntry ||| IRQMASK
    (true, [⟨ioApic.vaddrBase, IOREGSEL, regidx⟩, ⟨ioApic.vaddrBase, IOREGSEL, regidx + 1⟩] ++
      ioApicWrite64 ioApic regidx redirEntry)

/-- The processors that have run `KrInitInt`, in their order, what is still to be written by the
driver that is changing a redirection, and the vectors that each local APIC has been sent but has
not accepted yet. -/
structure RoutingState where
  irq : AldistState
  active : List Nat
  devices : IoApicDevices
  writes : List MmioWrite
  requested : Nat → Finset Nat
  cpus : Nat → LocalApic

def DeviceVector (vector : Nat) : Prop := 33 ≤ vector ∧ vector < 255

def LowHalf (regidx : BitVec 32) : Prop := 0x10 ≤ regidx.toNat ∧ regidx.toNat % 2 = 0

/-- What a processor can be sent: its timer's interrupt, and those of the entries that are not
masked and are for it. -/
def Sent (devices : IoApicDevices) (cpuID vector : Nat) : Prop :=
  vector = KERNEL_TIMER_INTERRUPT_VECTOR ∨
  ∃ base regidx, LowHalf regidx ∧
    ((devices base).registers regidx).getLsbD 16 = false ∧
    (((devices base).registers regidx).setWidth 8).toNat = vector ∧
    ((devices base).registers (regidx + 1) >>> 24).toNat = cpuID

def Redirected (table : IoApicTable) (devices : IoApicDevices) (irq : Nat) : Prop :=
  ∀ ioApic, findIoApicForIRQ table irq = some ioApic →
    DeviceVector ((lodword (entryOf devices ioApic irq)).setWidth 8).toNat

def RoutingState.smp (s : RoutingState) (h : s.active.length < 2 ^ 32) : SmpInfo :=
  ⟨fun i => s.active.getD i 0, s.active.length, h⟩

/-- A step of the system. Vectors 0x20 and 0xFF are the kernel's own: no driver gives them back.
One redirection is changed at a time, since nothing keeps the register writes of two apart. -/
inductive RoutingStep (l : Linked) (table : IoApicTable) : RoutingState → RoutingState → Prop where
  | initInt (s : RoutingState) (cpuID : Nat) :
      RoutingStep l table s { s with
        irq := { s.irq with
          interrupt := setHandlers cpuID s.irq.interrupt (initialHandlers l) }
        active := s.active ++ [cpuID] }
  | setInterruptHandler (s : RoutingState) (cpuID : Nat) (vector : Byte)
      (handler : Option Nat) :
      RoutingStep l table s { s with
        irq := { s.irq with
          interrupt := setInterruptHandler s.irq.interrupt cpuID vector handler } }
  | unsetInterrupt (s : RoutingState) (cpuID : Nat) (vector : Byte)
      (htimer : vector.toNat ≠ KERNEL_TIMER_INTERRUPT_VECTOR)
      (hspurious : vector.toNat ≠ KERNEL_SPURIOUS_INTERRUPT_VECTOR) :
      RoutingStep l table s { s with
        irq := { s.irq with interrupt := unsetInterrupt s.irq.interrupt cpuID vector } }
  | register (s : RoutingState) (irq cpuID : Nat) (vector : Byte) (idx : AldistState)
      (hwDevice handler : Option Nat) (hcount : s.active.length < 2 ^ 32)
      (hactive : s.active ≠ []) (hwrites : s.writes = [])
      (hoffer : aldistOfferSetupForIRQ s.irq (s.smp hcount) irq = (.offer cpuID vector, idx)) :
      RoutingStep l table s { s with
        irq := { idx with
          interrupt := setHardwareInterrupt idx.interrupt cpuID vector hwDevice irq handler }
        writes := (setRedirectIRQ table irq cpuID vector).2 }
  | setEnable (s : RoutingState) (irq : Nat) (bEnable : Bool) (hwrites : s.writes = [])
      (hredirected : bEnable = true → Redirected table s.devices irq) :
      RoutingStep l table s { s with writes := (setEnableIRQ table s.devices irq bEnable).2 }
  | mmioWrite (s : RoutingState) (w : MmioWrite) (rest : List MmioWrite)
      (devices : IoApicDevices) (hwrites : s.writes = w :: rest)
      (hwrite : mmioWrite32 s.devices w = some devices) :
      RoutingStep l table s { s with devices := devices, writes := rest }
  | send (s : RoutingState) (cpuID vector : Nat) (h : Sent s.devices cpuID vector) :
      RoutingStep l table s { s with
        requested := Function.update s.requested cpuID (insert vector (s.requested cpuID)) }
  | accept (s : RoutingState) (cpuID vector : Nat) (hrequested : vector ∈ s.requested cpuID)
      (hroom : Deliverable apicClass (s.cpus cpuID) vector) :
      RoutingStep l table s { s with
        requested := Function.update s.requested cpuID ((s.requested cpuID).erase vector)
        cpus := Function.update s.cpus cpuID (deliver sendsEndOfInt (s.cpus cpuID) vector) }
  | processor (s : RoutingState) (cpuID : Nat) (cpu : LocalApic)
      (h : ApicStep (fun _ => False) (s.cpus cpuID) cpu) :
      RoutingStep l table s { s with cpus := Function.update s.cpus cpuID cpu }

structure RoutingState.Start (s : RoutingState) : Prop where
  irq : s.irq = startAldist
  active : s.active = []
  masked : ∀ base regidx, LowHalf regidx →
    ((s.devices base).registers regidx).getLsbD 16 = true
  writes : s.writes = []
  requested : ∀ cpuID, s.requested cpuID = ∅
  cpus : ∀ cpuID, s.cpus cpuID = idle

def LowOk (low : BitVec 32) : Prop :=
  low.getLsbD 16 = true ∨ DeviceVector (low.setWidth 8).toNat

/-- What is left of the writes of one entry. -/
inductive WritesOk (devices : IoApicDevices) : List MmioWrite → Prop where
  | done : WritesOk devices []
  | select (base : Nat) (regidx : BitVec 32) (rest : List MmioWrite) (h : WritesOk devices rest)
      (hrest : ∃ regidx' rest', rest = ⟨base, IOREGSEL, regidx'⟩ :: rest') :
      WritesOk devices (⟨base, IOREGSEL, regidx⟩ :: rest)
  | entry (base : Nat) (regidx low high : BitVec 32) (heven : regidx.toNat % 2 = 0)
      (hlow : LowOk low) :
      WritesOk devices [⟨base, IOREGSEL, regidx⟩, ⟨base, IOREGWIN, low⟩,
        ⟨base, IOREGSEL, regidx + 1⟩, ⟨base, IOREGWIN, high⟩]
  | low (base : Nat) (regidx low high : BitVec 32) (heven : regidx.toNat % 2 = 0)
      (hlow : LowOk low) (hsel : (devices base).ioregsel = regidx) :
      WritesOk devices [⟨base, IOREGWIN, low⟩, ⟨base, IOREGSEL, regidx + 1⟩,
        ⟨base, IOREGWIN, high⟩]
  | selectHigh (base : Nat) (regidx high : BitVec 32) (heven : regidx.toNat % 2 = 0) :
      WritesOk devices [⟨base, IOREGSEL, regidx + 1⟩, ⟨base, IOREGWIN, high⟩]
  | high (base : Nat) (regidx high : BitVec 32) (heven : regidx.toNat % 2 = 0)
      (hsel : (devices base).ioregsel = regidx + 1) :
      WritesOk devices [⟨base, IOREGWIN, high⟩]

structure RoutingSound (s : RoutingState) : Prop where
  idx : s.irq.idx = 0 ∨ s.irq.idx < s.active.length
  reserved : ∀ cpuID ∈ s.active, ∀ vector : Byte, vector.toNat = KERNEL_TIMER_INTERRUPT_VECTOR ∨
    vector.toNat = KERNEL_SPURIOUS_INTERRUPT_VECTOR → Occupied s.irq.interrupt cpuID vector
  entries : ∀ base regidx, LowHalf regidx → LowOk ((s.devices base).registers regidx)
  writes : WritesOk s.devices s.writes
  requested : ∀ cpuID, ∀ vector ∈ s.requested cpuID, sendsEndOfInt vector = true
  cpus : ∀ cpuID, Sound apicClass sendsEndOfInt (s.cpus cpuID)

variable {l : Linked} {table : IoApicTable} {devices : IoApicDevices} {s s' : RoutingState}
  {cpuID irq : Nat} {vector : Byte} {w : MmioWrite} {rest : List MmioWrite}

theorem deviceVector_reported {v : Nat} (h : DeviceVector v) : sendsEndOfInt v = true := by
  obtain ⟨hlow, hhigh⟩ := h
  have hreserved : KR_PROCESSOR_RESERVED_INTERRUPT_COUNT ≤ v := le_trans (by decide) hlow
  have hspurious : v ≠ KERNEL_SPURIOUS_INTERRUPT_VECTOR := ne_of_lt hhigh
  simp [sendsEndOfInt, hreserved, hspurious]

theorem sent_reported (h : ∀ base regidx, LowHalf regidx →
    LowOk ((devices base).registers regidx)) {v : Nat} (hv : Sent devices cpuID v) :
    sendsEndOfInt v = true := by
  cases hv with
  | inl htimer =>
    rw [htimer]
    rfl
  | inr hentry =>
    obtain ⟨base, regidx, hlow, hunmasked, hvector, -⟩ := hentry
    have hok := h base regidx hlow
    rw [← hvector]
    refine deviceVector_reported (hok.resolve_left ?_)
    rw [hunmasked]
    exact Bool.false_ne_true

theorem odd_of_even {regidx : BitVec 32} (h : regidx.toNat % 2 = 0) :
    (regidx + 1).toNat % 2 = 1 := by
  bv_omega

theorem WritesOk.reselect {devices' : IoApicDevices} {writes : List MmioWrite}
    (h : WritesOk devices writes)
    (hfirst : ∃ base regidx rest, writes = ⟨base, IOREGSEL, regidx⟩ :: rest) :
    WritesOk devices' writes := by
  obtain ⟨base', regidx', rest', hfirst⟩ := hfirst
  have hwindow : IOREGWIN ≠ IOREGSEL := by decide
  induction h generalizing base' regidx' rest' with
  | done => cases hfirst
  | select base regidx rest _ hrest ih =>
    obtain ⟨again, rest, rfl⟩ := hrest
    exact .select base regidx _ (ih _ _ _ rfl) ⟨again, rest, rfl⟩
  | entry base regidx low high heven hlow => exact .entry base regidx low high heven hlow
  | low => exact absurd (congrArg MmioWrite.offset (List.cons.inj hfirst).1) hwindow
  | selectHigh base regidx high heven => exact .selectHigh base regidx high heven
  | high => exact absurd (congrArg MmioWrite.offset (List.cons.inj hfirst).1) hwindow

theorem select_registers (base base' : Nat) (regidx : BitVec 32) {devices' : IoApicDevices}
    (hwrite : mmioWrite32 devices ⟨base, IOREGSEL, regidx⟩ = some devices') :
    (devices' base).ioregsel = regidx ∧
      (devices' base').registers = (devices base').registers := by
  rw [mmioWrite32, write_select] at hwrite
  cases hwrite
  by_cases h : base' = base
  · cases h
    simp
  · simp [h]

theorem window_registers (base base' : Nat) (dwValue regidx : BitVec 32)
    {devices' : IoApicDevices}
    (hwrite : mmioWrite32 devices ⟨base, IOREGWIN, dwValue⟩ = some devices') :
    (devices' base').registers regidx =
      if base' = base ∧ regidx = (devices base).ioregsel then dwValue
      else (devices base').registers regidx := by
  rw [mmioWrite32, write_window] at hwrite
  cases hwrite
  by_cases h : base' = base
  · cases h
    simp [Function.update_apply]
  · simp [h]

/-- A register write of a pending change keeps the entries. -/
theorem WritesOk.step (hw : WritesOk devices (w :: rest))
    (hentries : ∀ base regidx, LowHalf regidx → LowOk ((devices base).registers regidx))
    {devices' : IoApicDevices} (hwrite : mmioWrite32 devices w = some devices') :
    WritesOk devices' rest ∧
    ∀ base regidx, LowHalf regidx → LowOk ((devices' base).registers regidx) := by
  cases hw with
  | select base regidx _ hok hrest =>
    obtain ⟨again, more, rfl⟩ := hrest
    refine ⟨hok.reselect ⟨base, again, more, rfl⟩, fun base' regidx' hlow => ?_⟩
    rw [(select_registers base base' regidx hwrite).2]
    exact hentries base' regidx' hlow
  | entry base regidx low high heven hlow =>
    refine ⟨.low base regidx low high heven hlow (select_registers base base regidx hwrite).1,
      fun base' regidx' hhalf => ?_⟩
    rw [(select_registers base base' regidx hwrite).2]
    exact hentries base' regidx' hhalf
  | low base regidx low high heven hlow hsel =>
    refine ⟨.selectHigh base regidx high heven, fun base' regidx' hhalf => ?_⟩
    rw [window_registers base base' low regidx' hwrite]
    split
    · exact hlow
    · exact hentries base' regidx' hhalf
  | selectHigh base regidx high heven =>
    refine ⟨.high base regidx high heven (select_registers base base _ hwrite).1,
      fun base' regidx' hhalf => ?_⟩
    rw [(select_registers base base' _ hwrite).2]
    exact hentries base' regidx' hhalf
  | high base regidx high heven hsel =>
    refine ⟨.done, fun base' regidx' hhalf => ?_⟩
    have hodd := odd_of_even heven
    have hother : regidx' ≠ regidx + 1 := by
      rintro rfl
      have hlowhalf := hhalf.2
      omega
    rw [window_registers base base' high regidx' hwrite, hsel, if_neg fun h => hother h.2]
    exact hentries base' regidx' hhalf

theorem redirRegidx_even (ioApic : IoApicInfo) (irq : Nat) :
    (redirRegidx ioApic irq).toNat % 2 = 0 := by
  rw [redirRegidx, BitVec.toNat_ofNat]
  unfold IOREDTBL
  omega

theorem writesOk_entry (ioApic : IoApicInfo) {regidx : BitVec 32} {entry : BitVec 64}
    (heven : regidx.toNat % 2 = 0) (h : LowOk (lodword entry)) :
    WritesOk devices (ioApicWrite64 ioApic regidx entry) := .entry _ _ _ _ heven h

theorem writesOk_reread (ioApic : IoApicInfo) {regidx : BitVec 32} {entry : BitVec 64}
    (heven : regidx.toNat % 2 = 0) (h : LowOk (lodword entry)) :
    WritesOk devices ([⟨ioApic.vaddrBase, IOREGSEL, regidx⟩,
      ⟨ioApic.vaddrBase, IOREGSEL, regidx + 1⟩] ++ ioApicWrite64 ioApic regidx entry) :=
  .select _ _ _ (.select _ _ _ (writesOk_entry ioApic heven h) ⟨_, _, rfl⟩) ⟨_, _, rfl⟩

theorem setRedirectIRQ_writesOk (h : DeviceVector vector.toNat) :
    WritesOk devices (setRedirectIRQ table irq cpuID vector).2 := by
  unfold setRedirectIRQ
  split
  · exact .done
  · split
    · exact .done
    · refine writesOk_entry _ (redirRegidx_even _ irq) (Or.inr ?_)
      rw [lodword_redirEntry, BitVec.setWidth_setWidth_of_le _ (by decide), BitVec.setWidth_eq]
      exact h

theorem lowOk_masked (entry : BitVec 64) : LowOk (lodword (entry ||| IRQMASK)) := by
  left
  simp [lodword, IRQMASK]

theorem lowOk_unmasked {entry : BitVec 64} (h : DeviceVector ((lodword entry).setWidth 8).toNat) :
    LowOk (lodword (entry &&& ~~~IRQMASK)) := by
  have hsame : (lodword (entry &&& ~~~IRQMASK)).setWidth 8 = (lodword entry).setWidth 8 := by
    ext i hi
    have hmask : ∀ j < 8, IRQMASK.getLsbD j = false := by decide
    simp [lodword, hmask i hi]
  right
  rw [hsame]
  exact h

theorem setEnableIRQ_writesOk {bEnable : Bool}
    (h : bEnable = true → Redirected table devices irq) :
    WritesOk devices (setEnableIRQ table devices irq bEnable).2 := by
  unfold setEnableIRQ
  split
  · exact .done
  · rename_i ioApic hfind
    have hlow : LowOk (lodword (if bEnable then entryOf devices ioApic irq &&& ~~~IRQMASK
        else entryOf devices ioApic irq ||| IRQMASK)) := by
      cases bEnable with
      | true => exact lowOk_unmasked (h rfl ioApic hfind)
      | false => exact lowOk_masked _
    exact writesOk_reread ioApic (redirRegidx_even ioApic irq) hlow

theorem offer_found {smp : SmpInfo} {t : AldistState} {idx : AldistState}
    (hoffer : aldistOfferSetupForIRQ t smp irq = (.offer cpuID vector, idx))
    (hidx : t.idx < smp.activeProcessorCount) :
    32 ≤ vector.toNat ∧ ¬ Occupied t.interrupt cpuID vector ∧
    (∃ i, i < smp.activeProcessorCount ∧ smp.pCpuIDs i = cpuID) ∧
    idx.interrupt = t.interrupt ∧ idx.idx < smp.activeProcessorCount := by
  have hmoves := search_moves (offerOf t.interrupt smp) (nextIdx smp) smp.activeProcessorCount t.idx
  rw [aldistOfferSetupForIRQ] at hoffer
  cases hsearch : search (offerOf t.interrupt smp) (nextIdx smp) smp.activeProcessorCount t.idx with
  | mk found next =>
    rw [hsearch] at hoffer hmoves
    cases found with
    | none => cases hoffer
    | some pair =>
      cases hoffer
      obtain ⟨place, hnext⟩ := hmoves
      obtain ⟨hempty, hactive⟩ := offerOf_found (congrArg Prod.fst hsearch)
      obtain ⟨hvector, hfree⟩ := emptyVector_some hempty
      refine ⟨hvector, hfree, hactive hidx, rfl, ?_⟩
      exact hnext.trans_lt (nextIdx_lt (Nat.zero_lt_of_lt hidx) place)

theorem occupied_write {t : InterruptTables} {cpuID' : Nat} {vector' : Byte}
    (data : PerCpuInterrupt) (h : Occupied t cpuID' vector')
    (hother : vector' = vector → data.vector ≠ 0x00) :
    Occupied (writeInterrupt t cpuID vector data) cpuID' vector' := by
  by_cases hsame : cpuID' = cpuID ∧ vector' = vector
  · obtain ⟨rfl, rfl⟩ := hsame
    rw [Occupied, writeInterrupt_self]
    exact hother rfl
  · rw [Occupied, writeInterrupt_of_ne data hsame]
    exact h

theorem byte_ne_zero {v : Byte} (h : v.toNat ≠ 0) : v ≠ 0x00 := by
  rintro rfl
  exact h rfl

theorem initial_occupied {t : InterruptTables}
    (h : vector.toNat = KERNEL_TIMER_INTERRUPT_VECTOR ∨
      vector.toNat = KERNEL_SPURIOUS_INTERRUPT_VECTOR) :
    Occupied (setHandlers cpuID t (initialHandlers l)) cpuID vector := by
  have hsplit : vector = 0x20 ∨ vector = 0xFF := by
    rcases h with h | h
    · exact Or.inl (BitVec.eq_of_toNat_eq h)
    · exact Or.inr (BitVec.eq_of_toNat_eq h)
  rw [Occupied, setInitialHandlers]
  rcases hsplit with rfl | rfl
  · have hreserved : reservedHandler l 0x20 = some l.intmgmtTimerInterrupt := rfl
    rw [hreserved]
    exact byte_ne_zero (v := 0x20) (by decide)
  · have hreserved : reservedHandler l 0xFF = some l.intmgmtSpuriousInterrupt := rfl
    rw [hreserved]
    exact byte_ne_zero (v := 0xFF) (by decide)

theorem initial_occupied_other {t : InterruptTables} {cpuID' : Nat} (h : cpuID' ≠ cpuID)
    (hbefore : Occupied t cpuID' vector) :
    Occupied (setHandlers cpuID t (initialHandlers l)) cpuID' vector := by
  rw [Occupied, setHandlers_other h]
  exact hbefore

/-- The handler alone does not say whether a vector is occupied. -/
theorem setInterruptHandler_occupied {t : InterruptTables} {cpuID' : Nat} {vector' : Byte}
    {handler : Option Nat} (hbefore : Occupied t cpuID' vector') :
    Occupied (setInterruptHandler t cpuID vector handler) cpuID' vector' := by
  by_cases hsame : cpuID' = cpuID ∧ vector' = vector
  · obtain ⟨rfl, rfl⟩ := hsame
    rw [Occupied, setInterruptHandler, writeInterrupt_self]
    exact hbefore
  · rw [Occupied, setInterruptHandler, writeInterrupt_of_ne _ hsame]
    exact hbefore

theorem RoutingState.Start.sound (h : s.Start) : RoutingSound s where
  idx := Or.inl (by rw [h.irq]; rfl)
  reserved := by
    intro cpuID hcpu
    rw [h.active] at hcpu
    cases hcpu
  entries := fun base regidx hhalf => Or.inl (h.masked base regidx hhalf)
  writes := by
    rw [h.writes]
    exact .done
  requested := by
    intro cpuID v hv
    rw [h.requested] at hv
    exact absurd hv (Finset.notMem_empty v)
  cpus := by
    intro cpuID
    rw [h.cpus]
    exact sound_idle

theorem RoutingState.mem_active_smp {i : Nat} (hcount : s.active.length < 2 ^ 32)
    (hi : i < s.active.length) : (s.smp hcount).pCpuIDs i ∈ s.active := by
  have hget : (s.smp hcount).pCpuIDs i = s.active[i] := by
    simp only [RoutingState.smp]
    rw [List.getD_eq_getElem _ _ hi]
  rw [hget]
  exact List.getElem_mem _

/-- An empty vector is none of the kernel's own. -/
theorem RoutingSound.deviceVector (h : RoutingSound s) (hmem : cpuID ∈ s.active)
    (hfree : ¬Occupied s.irq.interrupt cpuID vector) (hlow : 0x20 ≤ vector.toNat) :
    DeviceVector vector.toNat := by
  have htimer := mt (h.reserved cpuID hmem vector ∘ Or.inl) hfree
  have hspurious := mt (h.reserved cpuID hmem vector ∘ Or.inr) hfree
  have hbyte := vector.isLt
  unfold KERNEL_TIMER_INTERRUPT_VECTOR at htimer
  unfold KERNEL_SPURIOUS_INTERRUPT_VECTOR at hspurious
  constructor <;> omega

theorem RoutingSound.step (h : RoutingSound s) (hstep : RoutingStep l table s s') :
    RoutingSound s' := by
  cases hstep with
  | initInt cpuID =>
    refine ⟨?_, ?_, h.entries, h.writes, h.requested, h.cpus⟩
    · cases h.idx with
      | inl hzero => exact Or.inl hzero
      | inr hlt => exact Or.inr (hlt.trans_le (by simp))
    · intro cpuID' hcpu vector hvector
      by_cases hsame : cpuID' = cpuID
      · rw [hsame]
        exact initial_occupied hvector
      · have hbefore : cpuID' ∈ s.active := by
          rw [List.mem_append, List.mem_singleton] at hcpu
          exact hcpu.resolve_right hsame
        exact initial_occupied_other hsame (h.reserved cpuID' hbefore vector hvector)
  | setInterruptHandler cpuID vector handler =>
    exact ⟨h.idx, fun cpuID' hcpu vector' hvector =>
      setInterruptHandler_occupied (h.reserved cpuID' hcpu vector' hvector), h.entries, h.writes,
      h.requested, h.cpus⟩
  | unsetInterrupt cpuID vector htimer hspurious =>
    refine ⟨h.idx, fun cpuID' hcpu vector' hvector => ?_, h.entries, h.writes, h.requested, h.cpus⟩
    refine occupied_write _ (h.reserved cpuID' hcpu vector' hvector) ?_
    rintro rfl
    exact absurd hvector (not_or.mpr ⟨htimer, hspurious⟩)
  | register irq cpuID vector idx hwDevice handler hcount hactive hwrites hoffer =>
    have hpos : 0 < s.active.length := List.length_pos_iff.mpr hactive
    have hidx : s.irq.idx < (s.smp hcount).activeProcessorCount := by
      cases h.idx with
      | inl hzero => rw [hzero]; exact hpos
      | inr hlt => exact hlt
    obtain ⟨hvector, hfree, ⟨i, hi, hcpu⟩, htable, hnext⟩ := offer_found hoffer hidx
    have hmem : cpuID ∈ s.active := hcpu ▸ RoutingState.mem_active_smp hcount hi
    have hdevice : DeviceVector vector.toNat := h.deviceVector hmem hfree hvector
    refine ⟨Or.inr hnext, fun cpuID' hcpu' vector' hvector' => ?_, h.entries,
      setRedirectIRQ_writesOk hdevice, h.requested, h.cpus⟩
    have hzero : vector ≠ 0x00 := byte_ne_zero (by omega)
    simp only [htable]
    exact occupied_write _ (h.reserved cpuID' hcpu' vector' hvector') fun _ => hzero
  | setEnable irq bEnable hwrites hredirected =>
    exact ⟨h.idx, h.reserved, h.entries, setEnableIRQ_writesOk hredirected, h.requested, h.cpus⟩
  | mmioWrite w rest devices hwrites hwrite =>
    have hok := h.writes
    rw [hwrites] at hok
    obtain ⟨hrest, hentries⟩ := hok.step h.entries hwrite
    exact ⟨h.idx, h.reserved, hentries, hrest, h.requested, h.cpus⟩
  | send cpuID vector hsent =>
    refine ⟨h.idx, h.reserved, h.entries, h.writes, ?_, h.cpus⟩
    refine (Function.forall_update_iff s.requested fun _ vs => ∀ v ∈ vs, sendsEndOfInt v = true).mpr
      ⟨fun v hv => ?_, fun cpuID' _ => h.requested cpuID'⟩
    cases Finset.mem_insert.mp hv with
    | inl hsame => exact hsame ▸ sent_reported h.entries hsent
    | inr hbefore => exact h.requested cpuID v hbefore
  | accept cpuID vector hrequested hroom =>
    refine ⟨h.idx, h.reserved, h.entries, h.writes, ?_, ?_⟩
    · refine (Function.forall_update_iff s.requested fun _ vs =>
        ∀ v ∈ vs, sendsEndOfInt v = true).mpr
        ⟨fun v hv => ?_, fun cpuID' _ => h.requested cpuID'⟩
      exact h.requested cpuID v (Finset.mem_of_mem_erase hv)
    · refine (Function.forall_update_iff s.cpus fun _ => Sound apicClass sendsEndOfInt).mpr
        ⟨?_, fun cpuID' _ => h.cpus cpuID'⟩
      exact (h.cpus cpuID).step apicClass_mono (h.requested cpuID)
        (fun _ hv => processorVector_silent hv) (.deliver _ vector hrequested hroom)
  | processor cpuID cpu hcpu =>
    refine ⟨h.idx, h.reserved, h.entries, h.writes, h.requested, ?_⟩
    refine (Function.forall_update_iff s.cpus fun _ => Sound apicClass sendsEndOfInt).mpr
      ⟨?_, fun cpuID' _ => h.cpus cpuID'⟩
    exact (h.cpus cpuID).step apicClass_mono (fun _ hv => absurd hv not_false)
      (fun _ hv => processorVector_silent hv) hcpu

/-- In every run of the system, whatever is redirected, delivered and nested, and wherever the
register writes of a redirection stand: on each processor just the unserved interrupts of the
devices and the timer are in service; the dispatch of the innermost one reports its end, which is
taken for its own; and when all have returned, the processor can be sent any. -/
theorem own_service_ended (hstart : s.Start) (hrun : Run (RoutingStep l table) s s')
    (cpuID : Nat) :
    (∀ v, v ∈ (s'.cpus cpuID).inService ↔ v ∈ pending (s'.cpus cpuID)) ∧
    (∀ a rest, (s'.cpus cpuID).handlers = a :: rest → a.served = false → a.external = true →
      endOfService (s'.cpus cpuID).inService = (s'.cpus cpuID).inService.erase a.request ∧
      ∀ frame : InterruptFrame, frame.interruptNo.toNat = a.request →
        DispatchAction.endOfInt ∈ krDispatchInterrupt (s'.irq.interrupt cpuID) frame) ∧
    ((s'.cpus cpuID).handlers = [] → ∀ v, Deliverable apicClass (s'.cpus cpuID) v) := by
  have hsound : RoutingSound s' := Run.invariant (fun _ _ h hstep => h.step hstep) hrun hstart.sound
  have hcpu := hsound.cpus cpuID
  refine ⟨hcpu.inService, fun a rest hhandlers hserved hexternal => ⟨?_, ?_⟩, ?_⟩
  · exact hcpu.ends_own apicClass_mono hhandlers hserved hexternal
  · intro frame hframe
    have hmem : a ∈ (s'.cpus cpuID).handlers := by
      rw [hhandlers]
      exact List.mem_cons_self
    rw [endOfInt_mem_iff, hframe]
    exact (hcpu.reported a hmem hserved).mpr hexternal
  · intro hidle v w hw
    rw [hcpu.inService, pending, hidle] at hw
    cases hw

theorem run_writes (l : Linked) (table : IoApicTable) (s : RoutingState) :
    Run (RoutingStep l table) s { s with
      devices := s.writes.foldl (fun devices w => (mmioWrite32 devices w).getD devices) s.devices
      writes := [] } := by
  obtain ⟨irq, active, devices, writes, requested, cpus⟩ := s
  induction writes generalizing devices with
  | nil => exact Relation.ReflTransGen.refl
  | cons w writes ih => exact Relation.ReflTransGen.head (.mmioWrite _ w writes _ rfl rfl) (ih _)

def maskedIoApics : RoutingState :=
  ⟨startAldist, [], fun _ => ⟨0, fun _ => 0x10000⟩, [], fun _ => ∅, fun _ => idle⟩

def oneProcessorUp : RoutingState :=
  { maskedIoApics with
    irq := { startAldist with
      interrupt := setHandlers 0 startAldist.interrupt (initialHandlers linkedKernel) }
    active := [0] }

def keyboardOffered : RoutingState :=
  { oneProcessorUp with
    irq := { oneProcessorUp.irq with
      interrupt := setHardwareInterrupt oneProcessorUp.irq.interrupt 0 33 none 1 (some 0x600) }
    writes := (setRedirectIRQ oneIoApic 1 0 33).2 }

def keyboardRouted : RoutingState :=
  { keyboardOffered with
    devices := keyboardOffered.writes.foldl
      (fun devices w => (mmioWrite32 devices w).getD devices) keyboardOffered.devices
    writes := [] }

theorem run_keyboardRouted :
    Run (RoutingStep linkedKernel oneIoApic) maskedIoApics keyboardRouted := by
  have hoffer : (aldistOfferSetupForIRQ oneProcessorUp.irq (oneProcessorUp.smp (by decide)) 1) =
      (.offer 0 33, { oneProcessorUp.irq with idx := 0 }) := by
    have hvector : emptyVector oneProcessorUp.irq.interrupt 0 = some 33 := by decide +kernel
    have hfirst : offerOf oneProcessorUp.irq.interrupt (oneProcessorUp.smp (by decide)) 0 =
        some (0, 33) := by
      have hcpu : (oneProcessorUp.smp (by decide)).pCpuIDs 0 = 0 := rfl
      rw [offerOf, hcpu, hvector]
    unfold aldistOfferSetupForIRQ search
    have hidx : oneProcessorUp.irq.idx = 0 := rfl
    rw [hidx, hfirst]
    rfl
  exact (Relation.ReflTransGen.single (.initInt maskedIoApics 0)).trans
    (.head (.register oneProcessorUp 1 0 33 _ none (some 0x600) (by decide) (by decide) rfl hoffer)
      (run_writes linkedKernel oneIoApic keyboardOffered))

/-- The keyboard's interrupt is sent, then IRQ 1 begins to be masked, and only then processor 0
accepts the interrupt. -/
theorem run_keyboardAccepted : ∃ s, Run (RoutingStep linkedKernel oneIoApic) maskedIoApics s ∧
    s.writes.length = 6 ∧ s.cpus 0 = ⟨{33}, [⟨33, true, false⟩], 0⟩ := by
  have hsent : Sent keyboardRouted.devices 0 33 :=
    Or.inr ⟨0x1000, 0x12, by unfold LowHalf; decide, by decide, by decide, by decide⟩
  have hmasking := (run_keyboardRouted.tail (.send _ 0 33 hsent)).tail
    (.setEnable _ 1 false rfl fun h => absurd h Bool.false_ne_true)
  refine ⟨_, hmasking.tail (.accept _ 0 33 ?_ fun w hw => ?_), rfl, ?_⟩
  · simp
  · exact absurd hw (Finset.notMem_empty w)
  · simp only [Function.update_self]
    rfl

/-- Processor 0 accepts the keyboard's interrupt while its IRQ is being masked again, and its
handler faults. -/
theorem own_service_ended_keyboard : ∃ s s',
    Run (RoutingStep linkedKernel oneIoApic) maskedIoApics s ∧
    RoutingStep linkedKernel oneIoApic s s' ∧ s.writes.length = 6 ∧
    endOfService (s.cpus 0).inService = (s.cpus 0).inService.erase 33 ∧
    (s'.cpus 0).handlers = [⟨14, false, false⟩, ⟨33, true, false⟩] ∧
    ∀ v, v ∈ (s'.cpus 0).inService ↔ v = 33 := by
  have hstart : maskedIoApics.Start := by
    have hmask : (0x10000 : BitVec 32).getLsbD 16 = true := by decide
    exact ⟨rfl, rfl, fun _ _ _ => hmask, rfl, fun _ => rfl, fun _ => rfl⟩
  obtain ⟨s, hrun, hwrites, hcpu⟩ := run_keyboardAccepted
  have hfault : RoutingStep linkedKernel oneIoApic s { s with
      cpus := Function.update s.cpus 0 (intrude (s.cpus 0) 14) } :=
    .processor s 0 _ (.intrude _ 14 (Or.inl (by decide)))
  have hended := (own_service_ended hstart hrun 0).2.1 ⟨33, true, false⟩ [] (by rw [hcpu]) rfl rfl
  have hpending := (own_service_ended hstart (hrun.tail hfault) 0).1
  simp only [Function.update_self, hcpu] at hpending
  refine ⟨s, _, hrun, hfault, hwrites, hended.1, ?_, fun v => ?_⟩
  · simp only [Function.update_self, hcpu]
    rfl
  · simp only [Function.update_self, hcpu]
    refine (hpending v).trans ?_
    simp [pending, intrude, Activation.isPending]

end Ych.Intmgmt
