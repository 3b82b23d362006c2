import Ych.Boot.Bootelvt
import Ych.Memory.BSmapInit
import Ych.Memory.PageStructs
import Ych.Memory.RnaRun

/-! The switch from the boot stage's page tables to the kernel's: both send the kernel's area and
the frame buffer to the same physical addresses, writable. -/
namespace Ych.Virtmemmgmt
open Words PageTree PAT Physmemmgmt PTE Bootelvt
open KrTypePTE

def Writable (f : Tables (Fin 512)) (root v : Nat) : Prop :=
  ∀ e ∈ visited slot f 4 root (path v), e.testBit 1 = true

def Reaches (f : Tables (Fin 512)) (root v a : Nat) : Prop :=
  (∃ leaf, translation f root v = some leaf ∧ leafPhys leaf v = a) ∧ Writable f root v

/-- Gigabyte `j` of the topmost 512 sends its first `n` large pages to those from `base` on. -/
structure LargeWindow (f : Tables (Fin 512)) (root : Nat) (j : Fin 512) (n base pdpt pd : Nat) :
    Prop where
  pml4 : slot 3 (f root 511) = .table pdpt ∧ (f root 511).testBit 1 = true
  pdpt : slot 2 (f pdpt j) = .table pd ∧ (f pdpt j).testBit 1 = true
  leaf : ∀ i : Fin 512, i.val < n → slot 1 (f pd i) = .leaf ∧ (f pd i).testBit 1 = true ∧
    leafPhys (1, f pd i) 0 = (base + i.val * 2 ^ 21) % 2 ^ 52

variable {f : Tables (Fin 512)} {root n base pdpt pd o : Nat} {j : Fin 512}

theorem path_window (hj : j.val < 512) (ho : o < 2 ^ 30) :
    path (2 ^ 64 - 2 ^ 39 + j.val * 2 ^ 30 + o) =
      [511, j, Fin.ofNat 512 (o / 2 ^ 21), indexAt 0 (2 ^ 64 - 2 ^ 39 + j.val * 2 ^ 30 + o)] := by
  have hindex : ∀ {level k : Nat}, levelShift level = k → ∀ v, (indexAt level v).val =
      v / 2 ^ k % 512 := by
    rintro level k rfl v
    rfl
  simp only [path, List.cons.injEq, and_true]
  refine ⟨Fin.ext ?_, Fin.ext ?_, Fin.ext ?_⟩
  · rw [hindex (k := 39) rfl]
    show _ = 511
    omega
  · rw [hindex (k := 30) rfl]
    omega
  · rw [hindex (k := 21) rfl]
    show _ = o / 2 ^ 21 % 512
    omega

theorem LargeWindow.reaches (h : LargeWindow f root j n base pdpt pd) (hn : n ≤ 512)
    (ho : o < n * 2 ^ 21) :
    Reaches f root (2 ^ 64 - 2 ^ 39 + j.val * 2 ^ 30 + o)
      ((base + o / 2 ^ 21 * 2 ^ 21) % 2 ^ 52 + o % 2 ^ 21) := by
  have hlt : o < 2 ^ 30 := by omega
  have hj := j.isLt
  have hi : (Fin.ofNat 512 (o / 2 ^ 21)).val = o / 2 ^ 21 := Nat.mod_eq_of_lt (by omega)
  obtain ⟨hslot, hwrite, hphys⟩ := h.leaf (Fin.ofNat 512 (o / 2 ^ 21)) (by omega)
  have hpath := path_window hj hlt
  generalize hv : 2 ^ 64 - 2 ^ 39 + j.val * 2 ^ 30 + o = v at *
  have hcan : Canonical v := Or.inr ⟨by omega, by omega⟩
  refine ⟨⟨(1, f pd (Fin.ofNat 512 (o / 2 ^ 21))), ?_, ?_⟩, ?_⟩
  · rw [translation_of_canonical hcan, hpath]
    simp only [walk, h.pml4.1, h.pdpt.1, hslot]
  · have hmod : v % 2 ^ levelShift 1 = o % 2 ^ 21 := by
      rw [show levelShift 1 = 21 by rfl]
      omega
    rw [hi] at hphys
    rw [← hphys]
    simp only [leafPhys, hmod, Nat.zero_mod, Nat.add_zero]
  · unfold Writable
    rw [hpath]
    simp only [visited, h.pml4.1, h.pdpt.1, hslot, List.mem_cons, List.not_mem_nil, or_false]
    rintro e (rfl | rfl | rfl)
    · exact h.pml4.2
    · exact h.pdpt.2
    · exact hwrite

section entries
variable {flags : Nat}

theorem leaf_flags_or (hpresent : flags.testBit 0 = true) (hlarge : flags.testBit 7 = true)
    (hwrite : flags.testBit 1 = true) (hclear : ∀ k, 21 ≤ k → k < 52 → flags.testBit k = false)
    (hdvd : 2 ^ 21 ∣ base) :
    slot 1 (flags ||| base) = .leaf ∧ (flags ||| base).testBit 1 = true ∧
      leafPhys (1, flags ||| base) 0 = base % 2 ^ 52 := by
  refine ⟨?_, ?_, ?_⟩
  · have h0 : (flags ||| base).testBit 0 = true := by rw [Nat.testBit_or, hpresent, Bool.true_or]
    have h7 : (flags ||| base).testBit 7 = true := by rw [Nat.testBit_or, hlarge, Bool.true_or]
    rw [slot, h0, if_neg (by decide), if_pos (Or.inr ⟨by decide, h7⟩)]
  · rw [Nat.testBit_or, hwrite, Bool.true_or]
  · have hshift : levelShift 1 = 21 := rfl
    rw [leafPhys, hshift, Nat.zero_mod, Nat.add_zero]
    apply Nat.eq_of_testBit_eq
    intro k
    rw [Nat.testBit_mul_two_pow, Nat.testBit_div_two_pow, Nat.testBit_and, Nat.testBit_or,
      testBit_PTE_PHYSADDR_MASK, Nat.testBit_mod_two_pow]
    by_cases hk : 21 ≤ k
    · rw [Nat.sub_add_cancel hk, decide_eq_true hk, decide_eq_true (show 12 ≤ k by omega)]
      by_cases hk' : k < 52
      · rw [hclear k hk hk']
        simp [hk']
      · simp [hk']
    · rw [testBit_of_dvd hdvd (Nat.lt_of_not_le hk), decide_eq_false hk]
      simp

theorem table_or_three {t level : Nat} (hdvd : 2 ^ 12 ∣ t) (hlt : t < 2 ^ 52) (hlevel : level ≠ 0) :
    slot level (t ||| 0x03) = .table t ∧ (t ||| 0x03).testBit 1 = true := by
  have hbits : ∀ k, (t ||| 0x03).testBit k = (t.testBit k || decide (k < 2)) := by
    intro k
    rw [Nat.testBit_or, show 0x03 = 2 ^ 2 - 1 by decide, Nat.testBit_two_pow_sub_one]
  have h0 : (t ||| 0x03).testBit 0 = true := by simp [hbits]
  have h7 : (t ||| 0x03).testBit 7 = false := by
    rw [hbits, testBit_of_dvd hdvd (by decide)]
    rfl
  have hmask : (t ||| 0x03) &&& PTE_PHYSADDR_MASK = t := by
    apply Nat.eq_of_testBit_eq
    intro k
    rw [Nat.testBit_and, hbits, testBit_PTE_PHYSADDR_MASK]
    by_cases hk : 12 ≤ k
    · by_cases hk' : k < 52
      · simp [hk, hk', show ¬ k < 2 by omega]
      · rw [testBit_of_lt hlt (by omega)]
        simp [hk']
    · rw [testBit_of_dvd hdvd (by omega)]
      simp [hk]
  refine ⟨?_, by simp [hbits]⟩
  rw [slot, h0, if_neg (by decide), h7, if_neg (by simp [hlevel]), hmask]

end entries

section boot
variable (b : BootelvtImage) {frameBufferAddress frameBufferSize : Nat} {t : Nat} {i : Fin 512}

theorem bootelvt_apply (hn : loopCount (frameBufferPages frameBufferSize) = n) (hle : n ≤ 512)
    (haddr : frameBufferAddress < 2 ^ 64) (ht : t ≤ b.FBUF_PD) :
    bootelvt b frameBufferAddress frameBufferSize f t i =
      if t = b.FBUF_PD ∧ i.val < n then wrap64 (frameBufferAddress + i.val * 0x200000) ||| 0x1083
      else if t = b.KRNL_PD ∧ i.val < 64 then wrap64 (0x200000 + i.val * 0x200000) ||| 0x83
      else if t = b.KRNL_PDPT ∧ i.val = 511 then b.FBUF_PD ||| 0x03
      else if t = b.KRNL_PDPT ∧ i.val = 510 then b.KRNL_PD ||| 0x03
      else if t = b.PML4 ∧ i.val = 0 then b.IDPAGE_PDPT ||| 0x03
      else if t = b.PML4 ∧ i.val = 511 then b.KRNL_PDPT ||| 0x03
      else f t i := by
  obtain ⟨halign, hbelow⟩ := b.bounds
  obtain ⟨hpdpt, hpd, hfb, hid3, hid2, hid1⟩ := b.places
  have hstore : ∀ (g : Tables (Fin 512)) (s k e : Nat), 4096 ∣ s → k < 512 →
      storePhys g (s + k * PAGE_HIERARCHY_ENTRY_SIZE) e t i =
        if t = s ∧ i.val = k then e else g t i := by
    intro g s k e hs hk
    rw [Nat.mul_comm]
    exact storePhys_apply hs hk
  have hstore0 : ∀ (g : Tables (Fin 512)) (s e : Nat), 4096 ∣ s →
      storePhys g s e t i = if t = s ∧ i.val = 0 then e else g t i := fun g s e hs =>
    storePhys_apply (k := 0) hs (by decide)
  have hloop : ∀ (g : Tables (Fin 512)) (flags step m s base : Nat), 4096 ∣ s → s + 4096 < 2 ^ 64 →
      m ≤ 512 → base < 2 ^ 64 → populate flags step m s base g t i =
        if t = s ∧ i.val < m then wrap64 (base + i.val * step) ||| flags else g t i := by
    intro g flags step m s base hs hlow hm hbase
    have h : populate flags step m (s + 8 * 0) base g t i = _ :=
      populate_apply hs hlow (show 0 + m ≤ 512 by omega) hbase
    rw [Nat.mul_zero, Nat.add_zero] at h
    rw [h]
    simp only [Nat.zero_le, true_and, Nat.zero_add, Nat.sub_zero]
  have hids : loopCount (0x200000 / 0x1000) = 512 := by decide
  have hkernel : loopCount (KERNEL_RESERVE_SIZE / 0x200000) = 64 := by decide
  rw [bootelvt, hids, hkernel, hn]
  rw [hloop _ 0x3 0x1000 512 b.IDPAGE_PT 0 (by omega) (by omega) (by omega) (by omega),
    if_neg (by omega), hstore0 _ b.IDPAGE_PD _ (by omega), if_neg (by omega),
    hstore0 _ b.IDPAGE_PDPT _ (by omega), if_neg (by omega),
    hloop _ 0x1083 0x200000 n b.FBUF_PD frameBufferAddress (by omega) (by omega) hle haddr,
    hloop _ 0x83 0x200000 64 b.KRNL_PD 0x200000 (by omega) (by omega) (by omega) (by omega),
    hstore _ b.KRNL_PDPT 511 _ (by omega) (by omega),
    hstore _ b.KRNL_PDPT 510 _ (by omega) (by omega), hstore0 _ b.PML4 _ (by omega),
    hstore _ b.PML4 511 _ (by omega) (by omega)]

theorem bootelvt_tables (hn : loopCount (frameBufferPages frameBufferSize) = n) (hle : n ≤ 512)
    (haddr : frameBufferAddress < 2 ^ 64) :
    bootelvt b frameBufferAddress frameBufferSize f b.PML4 511 = b.KRNL_PDPT ||| 0x03 ∧
      bootelvt b frameBufferAddress frameBufferSize f b.KRNL_PDPT 510 = b.KRNL_PD ||| 0x03 ∧
      bootelvt b frameBufferAddress frameBufferSize f b.KRNL_PDPT 511 = b.FBUF_PD ||| 0x03 := by
  obtain ⟨hpdpt, hpd, hfb, _⟩ := b.places
  have h510 : (510 : Fin 512).val = 510 := rfl
  have h511 : (511 : Fin 512).val = 511 := rfl
  rw [bootelvt_apply b hn hle haddr (by omega), bootelvt_apply b hn hle haddr (by omega),
    bootelvt_apply b hn hle haddr (by omega), h510, h511]
  refine ⟨?_, ?_, ?_⟩
  · rw [if_neg (by omega), if_neg (by omega), if_neg (by omega), if_neg (by omega),
      if_neg (by omega), if_pos (by omega)]
  · rw [if_neg (by omega), if_neg (by omega), if_neg (by omega), if_pos (by omega)]
  · rw [if_neg (by omega), if_neg (by omega), if_pos (by omega)]

theorem bootelvt_kernelWindow (hn : loopCount (frameBufferPages frameBufferSize) = n)
    (hle : n ≤ 512) (haddr : frameBufferAddress < 2 ^ 64) :
    LargeWindow (bootelvt b frameBufferAddress frameBufferSize f) b.PML4 510 64 0x200000
      b.KRNL_PDPT b.KRNL_PD := by
  obtain ⟨hpdpt, hpd, hfb, _⟩ := b.places
  obtain ⟨halign, hbelow⟩ := b.bounds
  obtain ⟨h4, h3, _⟩ := bootelvt_tables b (f := f) hn hle haddr
  refine ⟨?_, ?_, fun i hi => ?_⟩
  · rw [h4]
    exact table_or_three (by omega) (by omega) (by decide)
  · rw [h3]
    exact table_or_three (by omega) (by omega) (by decide)
  · have hbase : wrap64 (0x200000 + i.val * 0x200000) = 0x200000 + i.val * 2 ^ 21 :=
      wrap64_of_lt (by omega)
    rw [bootelvt_apply b hn hle haddr (by omega), if_neg (by omega), if_pos ⟨rfl, hi⟩, hbase,
      Nat.or_comm]
    refine leaf_flags_or (by decide) (by decide) (by decide) (fun k h1 _ => ?_) (by omega)
    exact testBit_of_lt (show 0x83 < 2 ^ 21 by decide) h1

theorem bootelvt_frameWindow (hn : loopCount (frameBufferPages frameBufferSize) = n)
    (hle : n ≤ 512) (haddr : frameBufferAddress < 2 ^ 64) (hdvd : 2 ^ 21 ∣ frameBufferAddress) :
    LargeWindow (bootelvt b frameBufferAddress frameBufferSize f) b.PML4 511 n frameBufferAddress
      b.KRNL_PDPT b.FBUF_PD := by
  obtain ⟨hpdpt, hpd, hfb, _⟩ := b.places
  obtain ⟨halign, hbelow⟩ := b.bounds
  obtain ⟨h4, _, h3⟩ := bootelvt_tables b (f := f) hn hle haddr
  refine ⟨?_, ?_, fun i hi => ?_⟩
  · rw [h4]
    exact table_or_three (by omega) (by omega) (by decide)
  · rw [h3]
    exact table_or_three (by omega) (by omega) (by decide)
  · have hmod : wrap64 (frameBufferAddress + i.val * 0x200000) % 2 ^ 52 =
        (frameBufferAddress + i.val * 2 ^ 21) % 2 ^ 52 := by
      unfold wrap64
      omega
    rw [bootelvt_apply b hn hle haddr (by omega), if_pos ⟨rfl, hi⟩, Nat.or_comm, ← hmod]
    refine leaf_flags_or (by decide) (by decide) (by decide) (fun k h1 _ => ?_) ?_
    · exact testBit_of_lt (show 0x1083 < 2 ^ 21 by decide) h1
    · unfold wrap64
      omega

end boot

def contractLoadInfo : KrLoadInfo :=
  { reserveSize := KERNEL_RESERVE_SIZE
    addrPhysicalBase := KERNEL_LOAD_ADDRESS
    addrVirtualBase := KERNEL_VIRTUAL_ADDRESS }

structure LinkedPage (p : Nat) : Prop where
  aligned : 4096 ∣ p
  low : KERNEL_VIRTUAL_ADDRESS ≤ p
  high : p + 4096 ≤ KERNEL_VIRTUAL_ADDRESS + KERNEL_RESERVE_SIZE

/-- The contract's load addresses, four structures apart, and a frame buffer of at most 1 GiB. -/
structure BootLinked (boot : BootLayout) : Prop where
  load : boot.loadInfo = contractLoadInfo
  linked : ∀ p ∈ [boot.g_PML4, boot.g_KernelPDPT, boot.g_KernelPD, boot.g_FrameBufferPD],
    LinkedPage p
  distinct : [boot.g_PML4, boot.g_KernelPDPT, boot.g_KernelPD, boot.g_FrameBufferPD].Nodup
  frameBuffer : 2 ^ 21 ∣ boot.frameBufferInfo.physicalAddress
  address : boot.frameBufferInfo.physicalAddress < 2 ^ 64
  nonempty : 0 < boot.frameBufferInfo.size
  size : boot.frameBufferInfo.size ≤ 2 ^ 30

section kernel
variable {boot : BootLayout} {x : PagingState} {p q k t : Nat} {i : Fin 512} {type : KrTypePTE}
  {psl : KrPatSelect}

theorem reservedPhys_of_mem {v : Nat} (hlow : KERNEL_VIRTUAL_ADDRESS ≤ v)
    (hhigh : v ≤ KERNEL_VIRTUAL_ADDRESS + KERNEL_RESERVE_SIZE) :
    krReservedVirtToPhys contractLoadInfo v = v - KERNEL_VIRTUAL_ADDRESS + KERNEL_LOAD_ADDRESS := by
  simp only [krReservedVirtToPhys, contractLoadInfo]
  unfold KERNEL_VIRTUAL_ADDRESS KERNEL_RESERVE_SIZE KERNEL_LOAD_ADDRESS at *
  rw [sub64_of_le hlow (by omega), wrap64_of_lt (by omega)]
  omega

theorem reservedPhys (hp : LinkedPage p) :
    krReservedVirtToPhys contractLoadInfo p = p - KERNEL_VIRTUAL_ADDRESS + KERNEL_LOAD_ADDRESS := by
  have hhigh := hp.high
  exact reservedPhys_of_mem hp.low (by omega)

theorem reservedPhys_bounds (hp : LinkedPage p) :
    4096 ∣ krReservedVirtToPhys contractLoadInfo p ∧
      krReservedVirtToPhys contractLoadInfo p < 2 ^ 52 := by
  have haligned := hp.aligned
  have hlow := hp.low
  have hhigh := hp.high
  rw [reservedPhys hp]
  unfold KERNEL_VIRTUAL_ADDRESS KERNEL_RESERVE_SIZE KERNEL_LOAD_ADDRESS at *
  omega

theorem reservedPhys_inj {p' : Nat} (hp : LinkedPage p) (hp' : LinkedPage p')
    (h : krReservedVirtToPhys contractLoadInfo p = krReservedVirtToPhys contractLoadInfo p') :
    p = p' := by
  have hlow := hp.low
  have hlow' := hp'.low
  rw [reservedPhys hp, reservedPhys hp'] at h
  omega

theorem storeReserved_eq (hload : boot.loadInfo = contractLoadInfo) (hp : LinkedPage p)
    (hk : k < 512) (e : Nat) :
    storeReserved boot x p k e =
      { x with tables := storePhys x.tables (krReservedVirtToPhys contractLoadInfo p + 8 * k) e } := by
  have hlow := hp.low
  have hhigh := hp.high
  have hoffset : krReservedVirtToPhys contractLoadInfo (wrap64 (p + 8 * k)) =
      krReservedVirtToPhys contractLoadInfo p + 8 * k := by
    have htop : p + 8 * k < 2 ^ 64 := by
      unfold KERNEL_VIRTUAL_ADDRESS KERNEL_RESERVE_SIZE at hhigh
      omega
    rw [wrap64_of_lt htop, reservedPhys hp, reservedPhys_of_mem (by omega) (by omega)]
    omega
  unfold storeReserved storePhys
  rw [hload, hoffset]
  rfl

theorem encodeReserved_eq (hload : boot.loadInfo = contractLoadInfo) (hp : LinkedPage p)
    (hk : k < 512) {s : Nat} (hs : krGetPteTypeAlignment type = 2 ^ s) (hs64 : s < 64)
    (hdvd : 2 ^ s ∣ base) :
    encodeReserved boot x p k type base q psl =
      { x with
        tables := storePhys x.tables (krReservedVirtToPhys contractLoadInfo p + 8 * k)
          (krMakeFlagsForPTEv2 type (supportedFlags x q) psl ||| base) } := by
  unfold encodeReserved
  rw [pteEncodeEntry_aligned hs hs64 hdvd]
  exact storeReserved_eq hload hp hk _

def leafBits (x : PagingState) (q : Nat) (psl : KrPatSelect) : Nat :=
  krMakeFlagsForPTEv2 PD2MB_ENTRY (supportedFlags x q) psl

def tableBits (x : PagingState) (type : KrTypePTE) : Nat :=
  krMakeFlagsForPTEv2 type (supportedFlags x (PTE_PRESENT ||| PTE_WRITABLE)) x.g_pslDefault

def withLargePages (f : Tables (Fin 512)) (pd flags base n : Nat) : Tables (Fin 512) := fun t i =>
  if t = pd ∧ i.val < n then flags ||| wrap64 (base + i.val * 2 ^ 21) else f t i

theorem mapLargePages_eq (hload : boot.loadInfo = contractLoadInfo) (hp : LinkedPage p)
    (hn : n ≤ 512) (hdvd : 2 ^ 21 ∣ base) :
    mapLargePages boot x p base q psl n =
      { x with
        tables := withLargePages x.tables (krReservedVirtToPhys contractLoadInfo p)
          (leafBits x q psl) base n } := by
  induction n with
  | zero =>
    have hnone : withLargePages x.tables (krReservedVirtToPhys contractLoadInfo p)
        (leafBits x q psl) base 0 = x.tables := by
      funext t i
      rw [withLargePages, if_neg (by omega)]
    rw [hnone]
    rfl
  | succ n ih =>
    have hoffset : wrap32 (n * TWOMIB) = n * 2 ^ 21 := by
      unfold TWOMIB
      rw [wrap32_of_lt (by omega)]
      omega
    have hpage : 2 ^ 21 ∣ wrap64 (base + n * 2 ^ 21) := by
      unfold wrap64
      omega
    rw [mapLargePages, ih (by omega), hoffset, encodeReserved_eq (s := 21) hload hp (by omega) rfl
      (by decide) hpage]
    congr 1
    funext t i
    rw [storePhys_apply (reservedPhys_bounds hp).1 (by omega)]
    simp only [withLargePages]
    by_cases ht : t = krReservedVirtToPhys contractLoadInfo p
    · obtain hlt | heq | hgt := Nat.lt_trichotomy i.val n
      · rw [if_neg (by omega), if_pos ⟨ht, hlt⟩, if_pos ⟨ht, by omega⟩]
      · rw [if_pos ⟨ht, heq⟩, if_pos ⟨ht, by omega⟩, heq]
        rfl
      · rw [if_neg (by omega), if_neg (by omega), if_neg (by omega)]
    · rw [if_neg fun h => ht h.1, if_neg fun h => ht h.1, if_neg fun h => ht h.1]

theorem supportedFlags_tables (f : Tables (Fin 512)) (q : Nat) :
    supportedFlags { x with tables := f } q = supportedFlags x q := rfl

theorem leafBits_tables (f : Tables (Fin 512)) (q : Nat) (psl : KrPatSelect) :
    leafBits { x with tables := f } q psl = leafBits x q psl := rfl

theorem krVmmInitKernelStaticPages_eq (hb : BootLinked boot)
    (hn : frameBufferPageCount boot = n) (hle : n ≤ 512) {phys : Nat → Nat}
    (hphys : phys = krReservedVirtToPhys contractLoadInfo) :
    krVmmInitKernelStaticPages boot x = { x with
      tables := withLargePages
        (withLargePages
          (storePhys
            (storePhys
              (storePhys x.tables (phys boot.g_PML4 + 8 * KRNL_PML4_IDX)
                (tableBits x PML4_ENTRY ||| phys boot.g_KernelPDPT))
              (phys boot.g_KernelPDPT + 8 * KRNL_BINARY_PDPT_IDX)
              (tableBits x PDPT_ENTRY ||| phys boot.g_KernelPD))
            (phys boot.g_KernelPDPT + 8 * KRNL_VIDEO_FBUF_IDX)
            (tableBits x PDPT_ENTRY ||| phys boot.g_FrameBufferPD))
          (phys boot.g_KernelPD) (leafBits x (PTE_PRESENT ||| PTE_WRITABLE) x.g_pslDefault)
          KERNEL_LOAD_ADDRESS 64)
        (phys boot.g_FrameBufferPD)
        (leafBits x (PTE_PRESENT ||| PTE_WRITABLE ||| PTE_NX)
          (krSelectPat x.patMsrState KR_PAT_WRITE_COMBINING))
        boot.frameBufferInfo.physicalAddress n } := by
  have hlinked := hb.linked
  simp only [List.mem_cons, List.not_mem_nil, or_false, forall_eq_or_imp, forall_eq] at hlinked
  obtain ⟨h4, h3, h2, hf⟩ := hlinked
  have hcount : kernelPageCount boot = 64 := by
    rw [kernelPageCount, hb.load]
    decide
  have hbase : 2 ^ 21 ∣ contractLoadInfo.addrPhysicalBase := by decide
  have b3 := (reservedPhys_bounds h3).1
  have b2 := (reservedPhys_bounds h2).1
  have bf := (reservedPhys_bounds hf).1
  subst hphys
  rw [krVmmInitKernelStaticPages, hb.load, hcount, hn,
    encodeReserved_eq (s := 12) hb.load h4 (by decide) rfl (by decide) b3,
    encodeReserved_eq (s := 12) hb.load h3 (by decide) rfl (by decide) b2,
    encodeReserved_eq (s := 12) hb.load h3 (by decide) rfl (by decide) bf,
    mapLargePages_eq hb.load h2 (by decide) hbase,
    mapLargePages_eq hb.load hf hle hb.frameBuffer]
  simp only [supportedFlags_tables, leafBits_tables, tableBits]
  rfl

theorem krVmmInitKernelStaticPages_apply (hb : BootLinked boot)
    (hn : frameBufferPageCount boot = n) (hle : n ≤ 512) {phys : Nat → Nat}
    (hphys : phys = krReservedVirtToPhys contractLoadInfo) (t : Nat) (i : Fin 512) :
    (krVmmInitKernelStaticPages boot x).tables t i =
      if t = phys boot.g_FrameBufferPD ∧ i.val < n then
        leafBits x (PTE_PRESENT ||| PTE_WRITABLE ||| PTE_NX)
            (krSelectPat x.patMsrState KR_PAT_WRITE_COMBINING) |||
          wrap64 (boot.frameBufferInfo.physicalAddress + i.val * 2 ^ 21)
      else if t = phys boot.g_KernelPD ∧ i.val < 64 then
        leafBits x (PTE_PRESENT ||| PTE_WRITABLE) x.g_pslDefault |||
          wrap64 (KERNEL_LOAD_ADDRESS + i.val * 2 ^ 21)
      else if t = phys boot.g_KernelPDPT ∧ i.val = KRNL_VIDEO_FBUF_IDX then
        tableBits x PDPT_ENTRY ||| phys boot.g_FrameBufferPD
      else if t = phys boot.g_KernelPDPT ∧ i.val = KRNL_BINARY_PDPT_IDX then
        tableBits x PDPT_ENTRY ||| phys boot.g_KernelPD
      else if t = phys boot.g_PML4 ∧ i.val = KRNL_PML4_IDX then
        tableBits x PML4_ENTRY ||| phys boot.g_KernelPDPT
      else x.tables t i := by
  have b4 := (reservedPhys_bounds (hb.linked boot.g_PML4 (by simp))).1
  have b3 := (reservedPhys_bounds (hb.linked boot.g_KernelPDPT (by simp))).1
  rw [krVmmInitKernelStaticPages_eq hb hn hle hphys]
  subst hphys
  simp only [withLargePages]
  rw [storePhys_apply b3 (by decide), storePhys_apply b3 (by decide),
    storePhys_apply b4 (by decide)]

theorem leafBits_spec (hq : FlagsOnly q) (hwrite : q.testBit 1 = true) (hdvd : 2 ^ 21 ∣ base) :
    slot 1 (leafBits x q psl ||| base) = .leaf ∧ (leafBits x q psl ||| base).testBit 1 = true ∧
      leafPhys (1, leafBits x q psl ||| base) 0 = base % 2 ^ 52 := by
  have hs : FlagsOnly (supportedFlags x q) := hq.supported
  have hkept : (supportedFlags x q).testBit 1 = true := by
    unfold supportedFlags
    split
    · rw [Nat.testBit_and, hwrite]
      decide
    · exact hwrite
  have hbits : ∀ j, (krMakeFlagsForPTEv2 PD2MB_ENTRY (supportedFlags x q) psl).testBit j = _ :=
    fun _ => testBit_krMakeFlagsForPTEv2 hs.lt
  refine leaf_flags_or ?_ ?_ ?_ (fun j h1 h2 => ?_) hdvd
  · rw [leafBits, hbits, hs.present]
    rfl
  · rw [leafBits, hbits]
    simp
  · rw [leafBits, hbits, hkept]
    rfl
  · rw [leafBits, hbits, hs.clear j (by omega) h2, isPatBit]
    simp
    omega

theorem tableBits_spec {level : Nat} (htype : TableType type level) (hdvd : 2 ^ 12 ∣ base)
    (hlt : base < 2 ^ 52) :
    slot level (tableBits x type ||| base) = .table base ∧
      (tableBits x type ||| base).testBit 1 = true := by
  have hs : FlagsOnly (supportedFlags x (PTE_PRESENT ||| PTE_WRITABLE)) := flagsOnly_struct.supported
  refine ⟨slot_encode_table x.g_pslDefault hs htype hdvd hlt, ?_⟩
  have hkept : (supportedFlags x (PTE_PRESENT ||| PTE_WRITABLE)).testBit 1 = true := by
    unfold supportedFlags
    split <;> decide
  rw [tableBits, Nat.testBit_or, testBit_krMakeFlagsForPTEv2 hs.lt, hkept]
  rfl

theorem BootLinked.apart (hb : BootLinked boot) {phys : Nat → Nat}
    (hphys : phys = krReservedVirtToPhys contractLoadInfo) :
    phys boot.g_PML4 ≠ phys boot.g_KernelPDPT ∧ phys boot.g_PML4 ≠ phys boot.g_KernelPD ∧
      phys boot.g_PML4 ≠ phys boot.g_FrameBufferPD ∧
      phys boot.g_KernelPDPT ≠ phys boot.g_KernelPD ∧
      phys boot.g_KernelPDPT ≠ phys boot.g_FrameBufferPD ∧
      phys boot.g_KernelPD ≠ phys boot.g_FrameBufferPD := by
  subst hphys
  have hlinked := hb.linked
  have hdistinct := hb.distinct
  simp only [List.mem_cons, List.not_mem_nil, or_false, forall_eq_or_imp, forall_eq] at hlinked
  simp only [List.nodup_cons, List.mem_cons, List.not_mem_nil, or_false, not_or,
    not_false_eq_true, List.nodup_nil, and_true] at hdistinct
  obtain ⟨h4, h3, h2, hf⟩ := hlinked
  obtain ⟨⟨d1, d2, d3⟩, ⟨d4, d5⟩, d6⟩ := hdistinct
  exact ⟨fun h => d1 (reservedPhys_inj h4 h3 h), fun h => d2 (reservedPhys_inj h4 h2 h),
    fun h => d3 (reservedPhys_inj h4 hf h), fun h => d4 (reservedPhys_inj h3 h2 h),
    fun h => d5 (reservedPhys_inj h3 hf h), fun h => d6 (reservedPhys_inj h2 hf h)⟩

theorem kernel_kernelWindow (hb : BootLinked boot) (hn : frameBufferPageCount boot = n)
    (hle : n ≤ 512) {phys : Nat → Nat} (hphys : phys = krReservedVirtToPhys contractLoadInfo) :
    LargeWindow (krVmmInitKernelStaticPages boot x).tables (phys boot.g_PML4) 510 64
      KERNEL_LOAD_ADDRESS (phys boot.g_KernelPDPT) (phys boot.g_KernelPD) := by
  obtain ⟨a1, a2, a3, a4, a5, a6⟩ := hb.apart hphys
  have happly := krVmmInitKernelStaticPages_apply (x := x) hb hn hle hphys
  have b3 := reservedPhys_bounds (hb.linked boot.g_KernelPDPT (by simp))
  have b2 := reservedPhys_bounds (hb.linked boot.g_KernelPD (by simp))
  rw [← hphys] at b3 b2
  refine ⟨?_, ?_, fun i hi => ?_⟩
  · rw [happly, if_neg fun h => a3 h.1, if_neg fun h => a2 h.1, if_neg fun h => a1 h.1,
      if_neg fun h => a1 h.1, if_pos ⟨rfl, rfl⟩]
    exact tableBits_spec .pml4 b3.1 b3.2
  · have hother : ¬ (510 : Fin 512).val = KRNL_VIDEO_FBUF_IDX := by decide
    rw [happly, if_neg fun h => a5 h.1, if_neg fun h => a4 h.1, if_neg fun h => hother h.2,
      if_pos ⟨rfl, rfl⟩]
    exact tableBits_spec .pdpt b2.1 b2.2
  · have hbase : wrap64 (KERNEL_LOAD_ADDRESS + i.val * 2 ^ 21) = KERNEL_LOAD_ADDRESS + i.val * 2 ^ 21 := by
      unfold KERNEL_LOAD_ADDRESS
      exact wrap64_of_lt (by omega)
    rw [happly, if_neg fun h => a6 h.1, if_pos ⟨rfl, hi⟩, hbase]
    refine leafBits_spec flagsOnly_struct (by decide) ?_
    unfold KERNEL_LOAD_ADDRESS
    omega

theorem kernel_frameWindow (hb : BootLinked boot) (hn : frameBufferPageCount boot = n)
    (hle : n ≤ 512) {phys : Nat → Nat} (hphys : phys = krReservedVirtToPhys contractLoadInfo) :
    LargeWindow (krVmmInitKernelStaticPages boot x).tables (phys boot.g_PML4) 511 n
      boot.frameBufferInfo.physicalAddress (phys boot.g_KernelPDPT) (phys boot.g_FrameBufferPD) := by
  obtain ⟨a1, a2, a3, a4, a5, a6⟩ := hb.apart hphys
  have happly := krVmmInitKernelStaticPages_apply (x := x) hb hn hle hphys
  have b3 := reservedPhys_bounds (hb.linked boot.g_KernelPDPT (by simp))
  have bf := reservedPhys_bounds (hb.linked boot.g_FrameBufferPD (by simp))
  have hdvd := hb.frameBuffer
  rw [← hphys] at b3 bf
  refine ⟨?_, ?_, fun i hi => ?_⟩
  · rw [happly, if_neg fun h => a3 h.1, if_neg fun h => a2 h.1, if_neg fun h => a1 h.1,
      if_neg fun h => a1 h.1, if_pos ⟨rfl, rfl⟩]
    exact tableBits_spec .pml4 b3.1 b3.2
  · rw [happly, if_neg fun h => a5 h.1, if_neg fun h => a4 h.1, if_pos ⟨rfl, rfl⟩]
    exact tableBits_spec .pdpt bf.1 bf.2
  · have hmod : wrap64 (boot.frameBufferInfo.physicalAddress + i.val * 2 ^ 21) % 2 ^ 52 =
        (boot.frameBufferInfo.physicalAddress + i.val * 2 ^ 21) % 2 ^ 52 := by
      unfold wrap64
      omega
    rw [happly, if_pos ⟨rfl, hi⟩, ← hmod]
    refine leafBits_spec (flagsOnly_of_and (by decide) (by decide) (by decide)) (by decide) ?_
    unfold wrap64
    omega

theorem frameBufferPageCount_eq (hpos : 0 < boot.frameBufferInfo.size)
    (hle : boot.frameBufferInfo.size ≤ 2 ^ 30) :
    frameBufferPageCount boot = loopCount (frameBufferPages boot.frameBufferInfo.size) ∧
      frameBufferPageCount boot ≤ 512 ∧
      boot.frameBufferInfo.size ≤ frameBufferPageCount boot * 2 ^ 21 := by
  have hcount : frameBufferPageCount boot = (boot.frameBufferInfo.size + (2 ^ 21 - 1)) / 2 ^ 21 := by
    unfold frameBufferPageCount TWOMIB wrap32
    dsimp only
    split <;> omega
  rw [hcount]
  unfold loopCount frameBufferPages wrap64
  refine ⟨?_, by omega, by omega⟩
  split <;> split <;> omega

end kernel

def InImage (boot : BootLayout) (v : Nat) : Prop :=
  (KERNEL_VIRTUAL_ADDRESS ≤ v ∧ v < KERNEL_VIRTUAL_ADDRESS + KERNEL_RESERVE_SIZE) ∨
    (FRAMEBUFFER_VIRTUAL_ADDR ≤ v ∧ v < FRAMEBUFFER_VIRTUAL_ADDR + boot.frameBufferInfo.size)

/-- The load of the kernel's PML4 leaves every address of the running image where the boot stage
mapped it, writable. -/
theorem bootelvt_switch {boot : BootLayout} (hb : BootLinked boot) (b : BootelvtImage)
    (f : Tables (Fin 512)) (x : PagingState) {v : Nat} (hv : InImage boot v) :
    ∃ a, Reaches (bootelvt b boot.frameBufferInfo.physicalAddress boot.frameBufferInfo.size f)
        b.PML4 v a ∧
      Reaches (krVmmInitKernelStaticPages boot x).tables
        (krReservedVirtToPhys boot.loadInfo boot.g_PML4) v a := by
  obtain ⟨hcount, hle, hsize⟩ := frameBufferPageCount_eq hb.nonempty hb.size
  rw [hb.load]
  obtain hkernel | hframe := hv
  · have hboot := bootelvt_kernelWindow b (f := f) hcount.symm hle hb.address
    have hkrnl := kernel_kernelWindow (x := x) hb rfl hle rfl
    unfold KERNEL_VIRTUAL_ADDRESS KERNEL_RESERVE_SIZE at hkernel
    obtain ⟨o, rfl⟩ := Nat.exists_eq_add_of_le hkernel.1
    have ho : o < 64 * 2 ^ 21 := by omega
    have hplace : 0xFFFFFFFF80000000 = 2 ^ 64 - 2 ^ 39 + (510 : Fin 512).val * 2 ^ 30 := by decide
    rw [hplace]
    exact ⟨_, hboot.reaches (by decide) ho, hkrnl.reaches (by decide) ho⟩
  · have hboot := bootelvt_frameWindow b (f := f) hcount.symm hle hb.address hb.frameBuffer
    have hkrnl := kernel_frameWindow (x := x) hb rfl hle rfl
    unfold FRAMEBUFFER_VIRTUAL_ADDR at hframe
    obtain ⟨o, rfl⟩ := Nat.exists_eq_add_of_le hframe.1
    have ho : o < frameBufferPageCount boot * 2 ^ 21 := by omega
    have hplace : 0xFFFFFFFFC0000000 = 2 ^ 64 - 2 ^ 39 + (511 : Fin 512).val * 2 ^ 30 := by decide
    rw [hplace]
    exact ⟨_, hboot.reaches hle ho, hkrnl.reaches hle ho⟩

def smallLayout : BootLayout where
  loadInfo := contractLoadInfo
  frameBufferInfo := ⟨0xC0000000, FRAMEBUFFER_VIRTUAL_ADDR, 0x800001⟩
  g_PML4 := 0xFFFFFFFF80100000
  g_KernelPDPT := 0xFFFFFFFF80101000
  g_KernelPD := 0xFFFFFFFF80102000
  g_FrameBufferPD := 0xFFFFFFFF80103000

theorem bootLinked_smallLayout : BootLinked smallLayout := by
  refine ⟨rfl, fun p hp => ?_, by decide, by decide, by decide, by decide, by decide⟩
  simp only [smallLayout, List.mem_cons, List.not_mem_nil, or_false] at hp
  obtain rfl | rfl | rfl | rfl := hp <;> exact ⟨by decide, by decide, by decide⟩

def smallImage : BootelvtImage := ⟨0x104000, by decide, by decide⟩

def smallPaging : PagingState where
  vmm := smallVmm
  tables := fun _ _ => 0
  bInitialized := false
  bNoExecuteSupport := true
  patMsrState := patMsrSetup
  g_pslDefault := ⟨false, false, false⟩
  numIvldEncodeOfPTEs := 0

/-- The last byte of that frame buffer, alone in its page. -/
theorem bootelvt_switch_smallLayout : ∃ a,
    Reaches (bootelvt smallImage 0xC0000000 0x800001 fun _ _ => 0) 0x104000 0xFFFFFFFFC0800000 a ∧
      Reaches (krVmmInitKernelStaticPages smallLayout smallPaging).tables
        (krReservedVirtToPhys contractLoadInfo 0xFFFFFFFF80100000) 0xFFFFFFFFC0800000 a :=
  bootelvt_switch bootLinked_smallLayout smallImage (fun _ _ => 0) smallPaging
    (Or.inr ⟨by decide, by decide⟩)

end Ych.Virtmemmgmt
