import Ych.Memory.BootSwitch
import Ych.Memory.DmapRun

/-! The kernel's first mapping is what the construction of the direct map needs, wherever the arena
lies apart from its four structures. -/
namespace Ych.Virtmemmgmt
open Words BootstrapArena PageTree PAT Physmemmgmt PTE Bootelvt

/-- The root has one table, that one has two, and those have leaves only. -/
structure StaticTables (f : Tables (Fin 512)) (root pdpt pd fb : Nat) : Prop where
  root : ∀ i, slot 3 (f root i) = if i = 511 then .table pdpt else .absent
  pdpt : ∀ i, slot 2 (f pdpt i) =
    if i = 511 then .table fb else if i = 510 then .table pd else .absent
  pd : ∀ i t, slot 1 (f pd i) ≠ .table t
  fb : ∀ i t, slot 1 (f fb i) ≠ .table t

section tables
variable {f : Tables (Fin 512)} {root pdpt pd fb t : Nat} {q : List (Fin 512)}

theorem descend_leaves (h : ∀ i u, slot 1 (f t i) ≠ .table u) {v : Nat}
    (hd : descend slot f 2 t q = some v) : q = [] ∧ v = t := by
  cases q with
  | nil =>
    rw [descend_nil, Option.some.injEq] at hd
    exact ⟨rfl, hd.symm⟩
  | cons i q =>
    rw [descend] at hd
    cases hslot : slot 1 (f t i) with
    | absent => simp [hslot] at hd
    | leaf => simp [hslot] at hd
    | table u => exact absurd hslot (h i u)

theorem StaticTables.descend_cases (h : StaticTables f root pdpt pd fb)
    (hd : descend slot f 4 root q = some t) :
    q = [] ∧ t = root ∨ q = [511] ∧ t = pdpt ∨ q = [511, 510] ∧ t = pd ∨ q = [511, 511] ∧ t = fb := by
  cases q with
  | nil =>
    rw [descend_nil, Option.some.injEq] at hd
    exact Or.inl ⟨rfl, hd.symm⟩
  | cons i q =>
    rw [descend, h.root] at hd
    by_cases hi : i = 511
    · rw [if_pos hi] at hd
      dsimp only at hd
      cases q with
      | nil =>
        rw [descend_nil, Option.some.injEq] at hd
        exact Or.inr (Or.inl ⟨by rw [hi], hd.symm⟩)
      | cons j q =>
        rw [descend, h.pdpt] at hd
        by_cases hj : j = 511
        · rw [if_pos hj] at hd
          obtain ⟨rfl, rfl⟩ := descend_leaves h.fb hd
          exact Or.inr (Or.inr (Or.inr ⟨by rw [hi, hj], rfl⟩))
        · rw [if_neg hj] at hd
          by_cases hj' : j = 510
          · rw [if_pos hj'] at hd
            obtain ⟨rfl, rfl⟩ := descend_leaves h.pd hd
            exact Or.inr (Or.inr (Or.inl ⟨by rw [hi, hj'], rfl⟩))
          · rw [if_neg hj'] at hd
            exact absurd hd (by simp)
    · rw [if_neg hi] at hd
      exact absurd hd (by simp)

theorem StaticTables.tree (h : StaticTables f root pdpt pd fb)
    (hdistinct : [root, pdpt, pd, fb].Nodup) : Tree slot f 4 root := by
  simp only [List.nodup_cons, List.mem_cons, List.not_mem_nil, or_false, not_or] at hdistinct
  obtain ⟨⟨h1, h2, h3⟩, ⟨h4, h5⟩, h6, _⟩ := hdistinct
  intro p q t hp hq
  have hp' := h.descend_cases hp
  have hq' := h.descend_cases hq
  obtain ⟨rfl, rfl⟩ | ⟨rfl, rfl⟩ | ⟨rfl, rfl⟩ | ⟨rfl, rfl⟩ := hp'
  · simpa [h1, h2, h3, eq_comm] using hq'
  · simpa [h1, h4, h5, eq_comm, Ne.symm h1] using hq'
  · simpa [h2, h4, h6, eq_comm, Ne.symm h2, Ne.symm h4] using hq'
  · simpa [h3, h5, h6, eq_comm, Ne.symm h3, Ne.symm h5, Ne.symm h6] using hq'

end tables

section boot
variable {boot : BootLayout} {d : DmapLayout} {x : PagingState} {n : Nat}

def StructsZero (boot : BootLayout) (x : PagingState) : Prop :=
  ∀ p ∈ [boot.g_PML4, boot.g_KernelPDPT, boot.g_KernelPD, boot.g_FrameBufferPD], ∀ i,
    x.tables (krReservedVirtToPhys contractLoadInfo p) i = 0

theorem kernel_staticTables (hb : BootLinked boot) (hn : frameBufferPageCount boot = n)
    (hle : n ≤ 512) (hzero : StructsZero boot x) {phys : Nat → Nat}
    (hphys : phys = krReservedVirtToPhys contractLoadInfo) :
    StaticTables (krVmmInitKernelStaticPages boot x).tables (phys boot.g_PML4)
      (phys boot.g_KernelPDPT) (phys boot.g_KernelPD) (phys boot.g_FrameBufferPD) := by
  obtain ⟨a1, a2, a3, a4, a5, a6⟩ := hb.apart hphys
  have happly := krVmmInitKernelStaticPages_apply (x := x) hb hn hle hphys
  have hkernel := kernel_kernelWindow (x := x) hb hn hle hphys
  have hframe := kernel_frameWindow (x := x) hb hn hle hphys
  unfold StructsZero at hzero
  rw [← hphys] at hzero
  have z4 := hzero boot.g_PML4 (by simp)
  have z3 := hzero boot.g_KernelPDPT (by simp)
  have z2 := hzero boot.g_KernelPD (by simp)
  have zf := hzero boot.g_FrameBufferPD (by simp)
  refine ⟨fun i => ?_, fun i => ?_, fun i t => ?_, fun i t => ?_⟩
  · by_cases hi : i = 511
    · rw [if_pos hi, hi]
      exact hkernel.pml4.1
    · have hval : ¬i.val = KRNL_PML4_IDX := fun h => hi (Fin.ext h)
      rw [if_neg hi, happly, if_neg fun h => a3 h.1, if_neg fun h => a2 h.1, if_neg fun h => a1 h.1,
        if_neg fun h => a1 h.1, if_neg fun h => hval h.2, z4, slot_zero]
  · by_cases hi : i = 511
    · rw [if_pos hi, hi]
      exact hframe.pdpt.1
    · by_cases hi' : i = 510
      · rw [if_neg hi, if_pos hi', hi']
        exact hkernel.pdpt.1
      · have hval : ¬i.val = KRNL_VIDEO_FBUF_IDX := fun h => hi (Fin.ext h)
        have hval' : ¬i.val = KRNL_BINARY_PDPT_IDX := fun h => hi' (Fin.ext h)
        rw [if_neg hi, if_neg hi', happly, if_neg fun h => a5 h.1, if_neg fun h => a4 h.1,
          if_neg fun h => hval h.2, if_neg fun h => hval' h.2, if_neg fun h => a1 h.1.symm, z3,
          slot_zero]
  · by_cases hi : i.val < 64
    · rw [(hkernel.leaf i hi).1]
      simp
    · rw [happly, if_neg fun h => a6 h.1, if_neg fun h => hi h.2, if_neg fun h => a4 h.1.symm,
        if_neg fun h => a4 h.1.symm, if_neg fun h => a2 h.1.symm, z2, slot_zero]
      simp
  · by_cases hi : i.val < n
    · rw [(hframe.leaf i hi).1]
      simp
    · rw [happly, if_neg fun h => hi h.2, if_neg fun h => a6 h.1.symm, if_neg fun h => a5 h.1.symm,
        if_neg fun h => a5 h.1.symm, if_neg fun h => a3 h.1.symm, zf, slot_zero]
      simp

/-- The arena lies in the reserved area, and none of the structures in what is left of it. -/
structure ArenaPlaced (boot : BootLayout) (a : Arena) : Prop where
  base : KERNEL_VIRTUAL_ADDRESS ≤ a.pBase
  ptr : a.pBase ≤ a.pPtr
  stop : a.pPtr ≤ a.pEnd
  high : a.pEnd ≤ KERNEL_VIRTUAL_ADDRESS + KERNEL_RESERVE_SIZE
  apart : ∀ p ∈ [boot.g_PML4, boot.g_KernelPDPT, boot.g_KernelPD, boot.g_FrameBufferPD],
    p + KR_PAGE_SIZE ≤ a.pPtr ∨ a.pEnd ≤ p

theorem kernel_reserve (hb : BootLinked boot) (hload : d.maps.loadInfo = boot.loadInfo)
    (hpml4 : d.g_PML4 = boot.g_PML4) {v : Nat} (hv : InReserve d v) :
    physOf d (krVmmInitKernelStaticPages boot x) v =
      some (krReservedVirtToPhys d.maps.loadInfo v) := by
  obtain ⟨_, hle, _⟩ := frameBufferPageCount_eq hb.nonempty hb.size
  have hwindow := kernel_kernelWindow (x := x) hb rfl hle rfl
  unfold InReserve at hv
  rw [hload, hb.load] at hv
  have hbase : contractLoadInfo.addrVirtualBase = KERNEL_VIRTUAL_ADDRESS := rfl
  rw [hbase] at hv
  have hplace : KERNEL_VIRTUAL_ADDRESS = 2 ^ 64 - 2 ^ 39 + (510 : Fin 512).val * 2 ^ 30 := by decide
  have hbytes : KERNEL_RESERVE_SIZE = 64 * 2 ^ 21 := by decide
  have hphys := reservedPhys_of_mem hv.1 hv.2.le
  obtain ⟨o, rfl⟩ := Nat.exists_eq_add_of_le hv.1
  have ho : o < 64 * 2 ^ 21 := hbytes ▸ Nat.lt_of_add_lt_add_left hv.2
  obtain ⟨⟨leaf, htr, hleaf⟩, _⟩ := hwindow.reaches (by decide) ho
  rw [← hplace] at htr hleaf
  unfold physOf cr3
  rw [hload, hb.load, hpml4, htr, Option.map_some, hleaf, hphys, Option.some.injEq,
    Nat.add_sub_cancel_left]
  unfold KERNEL_LOAD_ADDRESS
  omega

theorem struct_outside {a : Arena} (hb : BootLinked boot) (ha : ArenaPlaced boot a) {p : Nat}
    (hp : p ∈ [boot.g_PML4, boot.g_KernelPDPT, boot.g_KernelPD, boot.g_FrameBufferPD]) :
    krReservedVirtToPhys contractLoadInfo p + KR_PAGE_SIZE ≤
        krReservedVirtToPhys contractLoadInfo a.pPtr ∨
      krReservedVirtToPhys contractLoadInfo a.pEnd ≤ krReservedVirtToPhys contractLoadInfo p := by
  have h1 := hb.linked p hp
  have h2 := h1.low
  have h3 := ha.apart p hp
  have h4 := ha.base
  have h5 := ha.ptr
  have h6 := ha.stop
  have h7 := ha.high
  rw [reservedPhys h1, reservedPhys_of_mem (by omega) (by omega),
    reservedPhys_of_mem (by omega) h7]
  omega

theorem kernel_dmapReady {a : Arena} (hb : BootLinked boot) (hload : d.maps.loadInfo = boot.loadInfo)
    (hpml4 : d.g_PML4 = boot.g_PML4) (hzero : StructsZero boot x) (ha : ArenaPlaced boot a)
    (ctx : KrDirectMappingContext) :
    DmapReady d ⟨krVmmInitKernelStaticPages boot x, a, ⟨0, 0, 0, 0, 0⟩, ctx⟩ := by
  obtain ⟨_, hle, _⟩ := frameBufferPageCount_eq hb.nonempty hb.size
  have hstatic := kernel_staticTables hb rfl hle hzero rfl
  have hcontract := hload.trans hb.load
  have hroot : cr3 d = krReservedVirtToPhys contractLoadInfo boot.g_PML4 := by
    rw [cr3, hcontract, hpml4]
  have hlink := hb.linked boot.g_PML4 (by simp)
  have hnodup : [krReservedVirtToPhys contractLoadInfo boot.g_PML4,
      krReservedVirtToPhys contractLoadInfo boot.g_KernelPDPT,
      krReservedVirtToPhys contractLoadInfo boot.g_KernelPD,
      krReservedVirtToPhys contractLoadInfo boot.g_FrameBufferPD].Nodup := by
    obtain ⟨a1, a2, a3, a4, a5, a6⟩ := hb.apart rfl
    simp [a1, a2, a3, a4, a5, a6]
  refine ⟨?_, ?_, ?_, ?_, ?_, fun v hv => kernel_reserve hb hload hpml4 hv, ?_, fun o ho => ?_, ?_,
    ha.ptr, ha.stop, ?_, ?_, fun v hv => ?_, fun q t hq => ?_, rfl⟩
  · rw [hcontract]
    decide
  · rw [hcontract]
    decide
  · rw [hcontract]
    decide
  · rw [hcontract]
    decide
  · rw [hcontract]
    decide
  · rw [hpml4]
    exact hlink.aligned
  · have h1 := hlink.low
    have h2 := hlink.high
    unfold InReserve
    rw [hcontract, hpml4]
    unfold KR_PAGE_SIZE at ho
    exact ⟨h1.trans (Nat.le_add_right _ _), (Nat.add_lt_add_left ho _).trans_le h2⟩
  · rw [hcontract]
    exact ha.base
  · rw [hcontract]
    exact ha.high
  · dsimp only
    rw [hroot]
    exact hstatic.tree hnodup
  · have hne : indexAt 3 (virtAddrBase + v) ≠ 511 := by
      intro h
      have hval : (virtAddrBase + v) / 2 ^ 39 % 512 = 511 := congrArg Fin.val h
      unfold dmapSpan at hv
      rw [virtAddrBase_eq] at hval
      omega
    rw [hroot, hstatic.root, if_neg hne]
  · rw [hroot] at hq
    dsimp only
    rw [hcontract]
    obtain ⟨_, ht⟩ | ⟨_, ht⟩ | ⟨_, ht⟩ | ⟨_, ht⟩ := hstatic.descend_cases hq
    · rw [ht]
      exact struct_outside hb ha (p := boot.g_PML4) (by simp)
    · rw [ht]
      exact struct_outside hb ha (p := boot.g_KernelPDPT) (by simp)
    · rw [ht]
      exact struct_outside hb ha (p := boot.g_KernelPD) (by simp)
    · rw [ht]
      exact struct_outside hb ha (p := boot.g_FrameBufferPD) (by simp)

end boot

def smallArena : Arena := ⟨0xFFFFFFFF80200000, 0xFFFFFFFF80200000, 0xFFFFFFFF80210000⟩

def bootedState : DmapState where
  paging := krVmmInitKernelStaticPages smallLayout smallPaging
  arena := smallArena
  info := ⟨0, 0, 0, 0, 0⟩
  ctx := ⟨0, 0, 0, 0, 0, 0⟩

theorem arenaPlaced_smallArena : ArenaPlaced smallLayout smallArena := by
  refine ⟨by decide, by decide, by decide, by decide, fun p hp => ?_⟩
  simp only [smallLayout, List.mem_cons, List.not_mem_nil, or_false] at hp
  obtain rfl | rfl | rfl | rfl := hp <;> decide

theorem bootedState_ready {d : DmapLayout} (hload : d.maps.loadInfo = contractLoadInfo)
    (hpml4 : d.g_PML4 = 0xFFFFFFFF80100000) : DmapReady d bootedState :=
  kernel_dmapReady bootLinked_smallLayout hload hpml4 (fun _ _ _ => rfl) arenaPlaced_smallArena _

theorem arenaRoom_smallArena : arenaRoom smallArena = 16 := by decide

end Ych.Virtmemmgmt
