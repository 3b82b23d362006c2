import Ych.Memory.PageWalk

/-! The page tables the boot stage builds before it enters the kernel: the kernel's area and the
frame buffer in large pages, and the lowest 2 MiB under their own addresses. -/
namespace Ych.Bootelvt
open Words PageTree PTE

def KERNEL_RESERVE_SIZE : Nat := 0x8000000
def KERNEL_LOAD_ADDRESS : Nat := 0x200000
def KERNEL_VIRTUAL_ADDRESS : Nat := 0xFFFFFFFF80000000
def FRAMEBUFFER_VIRTUAL_ADDR : Nat := 0xFFFFFFFFC0000000

def PAGE_HIERARCHY_ENTRY_SIZE : Nat := 8
def PAGE_HIERARCHY_TOTAL_SIZE : Nat := 512 * PAGE_HIERARCHY_ENTRY_SIZE

/-- Where the assembler puts the first structure; six more follow it, all in the 2 MiB below the
kernel. -/
structure BootelvtImage where
  PML4 : Nat
  aligned : PAGE_HIERARCHY_TOTAL_SIZE ∣ PML4
  below : PML4 + 7 * PAGE_HIERARCHY_TOTAL_SIZE ≤ KERNEL_LOAD_ADDRESS

namespace BootelvtImage
variable (b : BootelvtImage)

def KRNL_PDPT : Nat := b.PML4 + PAGE_HIERARCHY_TOTAL_SIZE
def KRNL_PD : Nat := b.KRNL_PDPT + PAGE_HIERARCHY_TOTAL_SIZE
def FBUF_PD : Nat := b.KRNL_PD + PAGE_HIERARCHY_TOTAL_SIZE
def IDPAGE_PDPT : Nat := b.FBUF_PD + PAGE_HIERARCHY_TOTAL_SIZE
def IDPAGE_PD : Nat := b.IDPAGE_PDPT + PAGE_HIERARCHY_TOTAL_SIZE
def IDPAGE_PT : Nat := b.IDPAGE_PD + PAGE_HIERARCHY_TOTAL_SIZE

theorem places : b.KRNL_PDPT = b.PML4 + 4096 ∧ b.KRNL_PD = b.PML4 + 8192 ∧
    b.FBUF_PD = b.PML4 + 12288 ∧ b.IDPAGE_PDPT = b.PML4 + 16384 ∧
    b.IDPAGE_PD = b.PML4 + 20480 ∧ b.IDPAGE_PT = b.PML4 + 24576 := by
  unfold IDPAGE_PT IDPAGE_PD IDPAGE_PDPT FBUF_PD KRNL_PD KRNL_PDPT PAGE_HIERARCHY_TOTAL_SIZE
    PAGE_HIERARCHY_ENTRY_SIZE
  omega

theorem bounds : 4096 ∣ b.PML4 ∧ b.PML4 + 28672 ≤ 0x200000 := by
  have haligned := b.aligned
  have hbelow := b.below
  unfold PAGE_HIERARCHY_TOTAL_SIZE PAGE_HIERARCHY_ENTRY_SIZE KERNEL_LOAD_ADDRESS at *
  exact ⟨haligned, hbelow⟩

end BootelvtImage

def storePhys (f : Tables (Fin 512)) (paddr entry : Nat) : Tables (Fin 512) :=
  setEntry f (paddr / 4096 * 4096) (Fin.ofNat 512 (paddr % 4096 / 8)) entry

/-- The counted loops: store `RBX | flags` at `RDX`, advance both. -/
def populate (flags step : Nat) : Nat → Nat → Nat → Tables (Fin 512) → Tables (Fin 512)
  | 0, _, _, f => f
  | rcx + 1, rdx, rbx, f =>
    populate flags step rcx (wrap64 (rdx + PAGE_HIERARCHY_ENTRY_SIZE)) (wrap64 (rbx + step))
      (storePhys f rdx (rbx ||| flags))

/-- `LOOP` decrements before it compares with 0. -/
def loopCount (rcx : Nat) : Nat := if rcx = 0 then 2 ^ 64 else rcx

def frameBufferPages (size : Nat) : Nat :=
  if size % 0x200000 = 0 then size / 0x200000 else wrap64 (size / 0x200000 + 1)

/-- The stores up to the load of CR3. -/
def bootelvt (b : BootelvtImage) (frameBufferAddress frameBufferSize : Nat)
    (f : Tables (Fin 512)) : Tables (Fin 512) :=
  let f := storePhys f (b.PML4 + 511 * PAGE_HIERARCHY_ENTRY_SIZE) (b.KRNL_PDPT ||| 0x03)
  let f := storePhys f b.PML4 (b.IDPAGE_PDPT ||| 0x03)
  let f := storePhys f (b.KRNL_PDPT + 510 * PAGE_HIERARCHY_ENTRY_SIZE) (b.KRNL_PD ||| 0x03)
  let f := storePhys f (b.KRNL_PDPT + 511 * PAGE_HIERARCHY_ENTRY_SIZE) (b.FBUF_PD ||| 0x03)
  let f := populate 0x83 0x200000 (loopCount (KERNEL_RESERVE_SIZE / 0x200000)) b.KRNL_PD 0x200000 f
  let f := populate 0x1083 0x200000 (loopCount (frameBufferPages frameBufferSize)) b.FBUF_PD
    frameBufferAddress f
  let f := storePhys f b.IDPAGE_PDPT (b.IDPAGE_PD ||| 0x03)
  let f := storePhys f b.IDPAGE_PD (b.IDPAGE_PT ||| 0x03)
  populate 0x3 0x1000 (loopCount (0x200000 / 0x1000)) b.IDPAGE_PT 0 f

variable {f : Tables (Fin 512)} {t k e n b flags step : Nat} {t' : Nat} {i : Fin 512}

theorem storePhys_apply (ht : 4096 ∣ t) (hk : k < 512) :
    storePhys f (t + 8 * k) e t' i = if t' = t ∧ i.val = k then e else f t' i := by
  have htable : (t + 8 * k) / 4096 * 4096 = t := by omega
  have hindex : Fin.ofNat 512 ((t + 8 * k) % 4096 / 8) = ⟨k, hk⟩ := by
    apply Fin.ext
    show (t + 8 * k) % 4096 / 8 % 512 = k
    omega
  rw [storePhys, htable, hindex]
  by_cases hsame : t' = t ∧ i.val = k
  · obtain ⟨rfl, hi⟩ := hsame
    obtain rfl : i = ⟨k, hk⟩ := Fin.ext hi
    rw [if_pos ⟨rfl, rfl⟩, setEntry_self]
  · rw [if_neg hsame]
    exact setEntry_other fun h hi => hsame ⟨h, congrArg Fin.val hi⟩

theorem populate_apply (ht : 4096 ∣ t) (hlow : t + 4096 < 2 ^ 64) (hn : k + n ≤ 512)
    (hb : b < 2 ^ 64) :
    populate flags step n (t + 8 * k) b f t' i =
      if t' = t ∧ k ≤ i.val ∧ i.val < k + n then wrap64 (b + (i.val - k) * step) ||| flags
      else f t' i := by
  induction n generalizing k b f with
  | zero =>
    rw [populate, if_neg]
    omega
  | succ n ih =>
    have hnext : wrap64 (t + 8 * k + PAGE_HIERARCHY_ENTRY_SIZE) = t + 8 * (k + 1) := by
      unfold PAGE_HIERARCHY_ENTRY_SIZE
      rw [wrap64_of_lt (by omega)]
      omega
    rw [populate, hnext, ih (by omega) (wrap64_lt _), storePhys_apply ht (by omega)]
    by_cases htable : t' = t
    · obtain hlt | heq | hgt := Nat.lt_trichotomy i.val k
      · rw [if_neg (by omega), if_neg (by omega), if_neg (by omega)]
      · rw [if_neg (by omega), if_pos ⟨htable, heq⟩, if_pos (by omega), heq, Nat.sub_self,
          Nat.zero_mul, Nat.add_zero, wrap64_of_lt hb]
      · by_cases hin : i.val < k + (n + 1)
        · have hstep : wrap64 (wrap64 (b + step) + (i.val - (k + 1)) * step) =
              wrap64 (b + (i.val - k) * step) := by
            have hsplit : i.val - k = i.val - (k + 1) + 1 := by omega
            rw [hsplit, Nat.succ_mul]
            unfold wrap64
            rw [Nat.mod_add_mod]
            congr 1
            omega
          rw [if_pos (by omega), if_pos (by omega), hstep]
        · rw [if_neg (by omega), if_neg (by omega), if_neg (by omega)]
    · rw [if_neg (by omega), if_neg (by omega), if_neg (by omega)]

end Ych.Bootelvt
