import Ych.Memory.StaticMapping

/-! Device memory: ranges of the kernel's MMIO area, handed out upwards and mapped static. -/
namespace Ych.Virtmemmgmt
open Words Krnlmem PTE

def MMIO_FLAG_USE_LARGE_PAGES : Nat := 2 ^ 0
def MMIO_FLAG_WRITE_COMBINE : Nat := 2 ^ 1
def KRNL_MMIO_PDPT_IDX : Nat := 256

structure MmioState where
  paging : PagingState
  vaddrMmioHead : Nat

variable (s : MmioState)

def mmioAllocateRange (alignment size : Nat) : Nat × MmioState :=
  let vaddrBase := wrap64 (s.vaddrMmioHead + sub32 alignment 1) &&& not64 (sub64 alignment 1)
  (vaddrBase, { s with vaddrMmioHead := wrap64 (vaddrBase + size) })

/-- The device's address, or 0. A region that cannot be mapped is left in the list: the release
of a region is not implemented. -/
def mmioMapDevice (deviceTag : String) (paddrDeviceBase deviceAddressSize flags : Nat) :
    Option (Nat × MmioState) :=
  let pageSize := if hasFlag flags MMIO_FLAG_USE_LARGE_PAGES then 0x200000 else 0x1000
  if !krtlIsPowerOfTwoAligned paddrDeviceBase pageSize then some (0, s)
  else if !krtlIsPowerOfTwoAligned (wrap64 (paddrDeviceBase + deviceAddressSize)) pageSize then
    some (0, s)
  else
    let (vaddrDeviceBase, s) := mmioAllocateRange s pageSize deviceAddressSize
    let regionFlags := VMR_FLAG_READABLE ||| VMR_FLAG_WRITABLE ||| VMR_FLAG_STATIC |||
      if hasFlag flags MMIO_FLAG_WRITE_COMBINE then VMR_CACHE_PROTOCOL_WRITE_COMBINE
      else VMR_CACHE_PROTOCOL_UNCACHEABLE
    let vmm := s.paging.vmm
    match vmAcquireRegion vmm vmm.kernelAddressSpace vaddrDeviceBase
        (wrap64 (vaddrDeviceBase + deviceAddressSize)) regionFlags with
    | none => none
    | some (pNode, vmm) =>
      if pNode = 0 then some (0, { s with paging := { s.paging with vmm := vmm } })
      else
        match vmMapStatic { s.paging with vmm := vmTagRegion vmm pNode deviceTag } pNode
            paddrDeviceBase with
        | none => none
        | some (false, paging) => some (0, { s with paging := paging })
        | some (true, paging) => some (vaddrDeviceBase, { s with paging := paging })

variable {s} {v : Nat} {tag : String} {paddr size flags : Nat} {y : MmioState}

/-- The page size asked for. It aligns the range, the pages are small all the same. -/
def mmioPageSize (flags : Nat) : Nat :=
  if hasFlag flags MMIO_FLAG_USE_LARGE_PAGES then 0x200000 else 0x1000

def mmioRegionFlags (flags : Nat) : Nat :=
  VMR_FLAG_READABLE ||| VMR_FLAG_WRITABLE ||| VMR_FLAG_STATIC |||
    if hasFlag flags MMIO_FLAG_WRITE_COMBINE then VMR_CACHE_PROTOCOL_WRITE_COMBINE
    else VMR_CACHE_PROTOCOL_UNCACHEABLE

def mmioWindow (s : MmioState) (size flags : Nat) : Nat :=
  (mmioAllocateRange s (mmioPageSize flags) size).1

def MmioAligned (paddr size flags : Nat) : Prop :=
  krtlIsPowerOfTwoAligned paddr (mmioPageSize flags) = true ∧
    krtlIsPowerOfTwoAligned (wrap64 (paddr + size)) (mmioPageSize flags) = true

instance (paddr size flags : Nat) : Decidable (MmioAligned paddr size flags) :=
  inferInstanceAs (Decidable (_ ∧ _))

def mmioRegion (s : MmioState) (size flags : Nat) : Option (Nat × VmmState) :=
  vmAcquireRegion s.paging.vmm s.paging.vmm.kernelAddressSpace (mmioWindow s size flags)
    (wrap64 (mmioWindow s size flags + size)) (mmioRegionFlags flags)

def mmioMapping (s : MmioState) (tag : String) (paddr p : Nat) (z : VmmState) :
    Option (Bool × PagingState) :=
  vmMapStatic { s.paging with vmm := vmTagRegion z p tag } p paddr

/-- How a call ends: a base or an end that is not aligned, a region that is refused, a region
that cannot be mapped, and a mapped device. -/
inductive MmioCall (s : MmioState) (tag : String) (paddr size flags : Nat) :
    Nat → MmioState → Prop where
  | misaligned (h : ¬MmioAligned paddr size flags) : MmioCall s tag paddr size flags 0 s
  | refused (z : VmmState) (h : MmioAligned paddr size flags)
      (hacq : mmioRegion s size flags = some (0, z)) :
      MmioCall s tag paddr size flags 0
        ⟨{ s.paging with vmm := z }, wrap64 (mmioWindow s size flags + size)⟩
  | failed (p : Nat) (z : VmmState) (x : PagingState) (h : MmioAligned paddr size flags)
      (hp : p ≠ 0) (hacq : mmioRegion s size flags = some (p, z))
      (hmap : mmioMapping s tag paddr p z = some (false, x)) :
      MmioCall s tag paddr size flags 0 ⟨x, wrap64 (mmioWindow s size flags + size)⟩
  | mapped (p : Nat) (z : VmmState) (x : PagingState) (h : MmioAligned paddr size flags)
      (hp : p ≠ 0) (hacq : mmioRegion s size flags = some (p, z))
      (hmap : mmioMapping s tag paddr p z = some (true, x)) :
      MmioCall s tag paddr size flags (mmioWindow s size flags)
        ⟨x, wrap64 (mmioWindow s size flags + size)⟩

theorem mmioMapDevice_eq : mmioMapDevice s tag paddr size flags =
    if MmioAligned paddr size flags then
      match mmioRegion s size flags with
      | none => none
      | some (p, z) =>
        if p = 0 then
          some (0, ⟨{ s.paging with vmm := z }, wrap64 (mmioWindow s size flags + size)⟩)
        else
          match mmioMapping s tag paddr p z with
          | none => none
          | some (false, x) => some (0, ⟨x, wrap64 (mmioWindow s size flags + size)⟩)
          | some (true, x) =>
            some (mmioWindow s size flags, ⟨x, wrap64 (mmioWindow s size flags + size)⟩)
    else some (0, s) := by
  by_cases hbase : krtlIsPowerOfTwoAligned paddr (mmioPageSize flags) = true
  · by_cases hend : krtlIsPowerOfTwoAligned (wrap64 (paddr + size)) (mmioPageSize flags) = true
    · rw [if_pos ⟨hbase, hend⟩]
      unfold mmioPageSize at hbase hend
      unfold mmioMapDevice
      dsimp only
      rw [hbase, hend]
      rfl
    · rw [if_neg fun h => hend h.2]
      rw [Bool.not_eq_true] at hend
      unfold mmioPageSize at hbase hend
      unfold mmioMapDevice
      dsimp only
      rw [hbase, hend]
      rfl
  · rw [if_neg fun h => hbase h.1]
    rw [Bool.not_eq_true] at hbase
    unfold mmioPageSize at hbase
    unfold mmioMapDevice
    dsimp only
    rw [hbase]
    rfl

theorem mmioMapDevice_iff :
    mmioMapDevice s tag paddr size flags = some (v, y) ↔ MmioCall s tag paddr size flags v y := by
  constructor
  · intro h
    rw [mmioMapDevice_eq] at h
    by_cases haligned : MmioAligned paddr size flags
    · rw [if_pos haligned] at h
      cases hacq : mmioRegion s size flags with
      | none =>
        rw [hacq] at h
        exact absurd h (by simp)
      | some node =>
        obtain ⟨p, z⟩ := node
        rw [hacq] at h
        dsimp only at h
        by_cases hp : p = 0
        · subst hp
          rw [if_pos rfl, Option.some.injEq, Prod.mk.injEq] at h
          obtain ⟨rfl, rfl⟩ := h
          exact .refused z haligned hacq
        · rw [if_neg hp] at h
          cases hmap : mmioMapping s tag paddr p z with
          | none =>
            rw [hmap] at h
            exact absurd h (by simp)
          | some res =>
            obtain ⟨ok, x⟩ := res
            rw [hmap] at h
            cases ok with
            | false =>
              rw [Option.some.injEq, Prod.mk.injEq] at h
              obtain ⟨rfl, rfl⟩ := h
              exact .failed p z x haligned hp hacq hmap
            | true =>
              rw [Option.some.injEq, Prod.mk.injEq] at h
              obtain ⟨rfl, rfl⟩ := h
              exact .mapped p z x haligned hp hacq hmap
    · rw [if_neg haligned, Option.some.injEq, Prod.mk.injEq] at h
      obtain ⟨rfl, rfl⟩ := h
      exact .misaligned haligned
  · intro h
    rw [mmioMapDevice_eq]
    cases h with
    | misaligned h => rw [if_neg h]
    | refused z h hacq =>
      rw [if_pos h, hacq]
      rfl
    | failed p z x h hp hacq hmap =>
      rw [if_pos h, hacq]
      dsimp only
      rw [if_neg hp, hmap]
    | mapped p z x h hp hacq hmap =>
      rw [if_pos h, hacq]
      dsimp only
      rw [if_neg hp, hmap]

theorem vmAcquireRegion_ordered {x z : VmmState} {space a b p : Nat}
    (h : vmAcquireRegion x space a b flags = some (p, z)) (hp : p ≠ 0) : a < b := by
  by_contra hle
  rw [vmAcquireRegion] at h
  split at h
  · cases h
    exact hp rfl
  · rw [if_pos (Or.inl (Nat.le_of_not_lt hle))] at h
    cases h
    exact hp rfl

theorem mmioAllocateRange_lt (s : MmioState) (alignment size : Nat) :
    (mmioAllocateRange s alignment size).1 < 2 ^ 64 :=
  Nat.and_le_left.trans_lt (wrap64_lt _)

theorem mmioMapDevice_range (hsize : size < 2 ^ 64)
    (h : mmioMapDevice s tag paddr size flags = some (v, y)) (hv : v ≠ 0) :
    v + size < 2 ^ 64 := by
  cases mmioMapDevice_iff.mp h with
  | misaligned => exact absurd rfl hv
  | refused => exact absurd rfl hv
  | failed => exact absurd rfl hv
  | mapped p z x _ hp hacq _ =>
    have hlt : mmioWindow s size flags < 2 ^ 64 := mmioAllocateRange_lt s _ size
    have horder := vmAcquireRegion_ordered hacq hp
    unfold wrap64 at horder
    omega

end Ych.Virtmemmgmt
