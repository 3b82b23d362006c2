import Ych.Memory.VmRegionList

/-! Where a region goes: between its neighbours in the list, which an empty list has no place for,
and in the division of its address space, which is checked for the first address only. -/
namespace Ych.Virtmemmgmt
open Words Links

variable {x y : VmmState} {nodes l r : List Nat} {space s e flags p : Nat}

def lastEndingBy (x : VmmState) (nodes : List Nat) (s : Nat) : Nat :=
  (nodes.filter fun p => (x.regions p).vaddrEnd ≤ s).getLastD 0

def firstStartingFrom (x : VmmState) (nodes : List Nat) (e : Nat) : Nat :=
  (nodes.filter fun p => e ≤ (x.regions p).vaddrStart).headD 0

/-- The search refuses an empty list and a range that overlaps the last region. -/
def NoPlace (x : VmmState) (s e : Nat) (nodes : List Nat) : Prop :=
  nodes = [] ∨ Overlaps x s e (nodes.getLastD 0)

theorem neighbours_of_cut (h : Ordered x (l ++ r)) (hse : s < e)
    (hl : ∀ q ∈ l, (x.regions q).vaddrEnd ≤ s) (hr : ∀ q ∈ r, e ≤ (x.regions q).vaddrStart) :
    lastEndingBy x (l ++ r) s = l.getLastD 0 ∧ firstStartingFrom x (l ++ r) e = r.headD 0 := by
  have hranges := h.ranges
  have hends : r.filter (fun p => (x.regions p).vaddrEnd ≤ s) = [] := by
    simp only [List.filter_eq_nil_iff, decide_eq_true_eq]
    intro q hq
    have hstart := hr q hq
    have hrange := hranges q (List.mem_append_right l hq)
    omega
  have hstarts : l.filter (fun p => e ≤ (x.regions p).vaddrStart) = [] := by
    simp only [List.filter_eq_nil_iff, decide_eq_true_eq]
    intro q hq
    have hend := hl q hq
    have hrange := hranges q (List.mem_append_left r hq)
    omega
  constructor
  · rw [lastEndingBy, List.filter_append, hends, List.append_nil, List.filter_eq_self.mpr]
    simpa using hl
  · rw [firstStartingFrom, List.filter_append, hstarts, List.nil_append, List.filter_eq_self.mpr]
    simpa using hr

theorem searched_none_iff (h : VmrList x space nodes) :
    vmFindInsertPointFrom x s e (2 ^ 64) (nodes.headD 0) = some none ↔ NoPlace x s e nodes := by
  obtain ⟨res, hfind, hres⟩ := h.search s e
  rw [hfind, NoPlace]
  cases res with
  | none =>
    have hplace : nodes ≠ [] → Overlaps x s e (nodes.getLastD 0) := hres
    exact iff_of_true rfl (or_iff_not_imp_left.mpr hplace)
  | some place =>
    obtain ⟨l, r, _, _, _, hne, hlast, _⟩ := hres
    exact iff_of_false (by simp) (not_or.mpr ⟨hne, hlast⟩)

theorem vmFindInsertPoint_eq (hspace : space ≠ 0) (hse : s < e) (h : VmrList x space nodes) :
    vmFindInsertPoint x space s e = vmFindInsertPointFrom x s e (2 ^ 64) (nodes.headD 0) := by
  rw [vmFindInsertPoint, if_neg hspace, if_neg (Nat.not_le.mpr hse), h.root]

theorem vmFindInsertPoint_nil (hspace : space ≠ 0) (hse : s < e) (h : VmrList x space []) :
    vmFindInsertPoint x space s e = some none := by
  rw [vmFindInsertPoint_eq hspace hse h, searched_none_iff h]
  exact Or.inl rfl

/-- A range that overlaps no region gets its neighbours, unless the list is empty. -/
theorem vmFindInsertPoint_neighbours_iff (h : VmrList x space nodes) (hspace : space ≠ 0)
    (hse : s < e) (hapart : ∀ q ∈ nodes, ¬Overlaps x s e q) :
    vmFindInsertPoint x space s e =
        some (some (firstStartingFrom x nodes e, lastEndingBy x nodes s)) ↔ nodes ≠ [] := by
  constructor
  · intro hfound hnil
    rw [hnil] at h
    rw [vmFindInsertPoint_nil hspace hse h] at hfound
    exact absurd hfound (by simp)
  · intro hne
    obtain ⟨res, hfind, hres⟩ := h.search s e
    rw [vmFindInsertPoint_eq hspace hse h, hfind]
    cases res with
    | none => exact absurd (hres hne) (hapart _ (getLastD_mem hne))
    | some place =>
      obtain ⟨before, after⟩ := place
      obtain ⟨l, r, rfl, rfl, rfl, _, _, hplace⟩ := hres
      obtain ⟨hl, hr⟩ := hplace hapart
      obtain ⟨hlast, hfirst⟩ := neighbours_of_cut h.ordered hse hl hr
      rw [hlast, hfirst]

theorem vmFindInsertPoint_neighbours_iff_twoRegions :
    vmFindInsertPoint twoRegions 1 0x3000 0x10000 =
      some (some (firstStartingFrom twoRegions [64, 128] 0x10000,
        lastEndingBy twoRegions [64, 128] 0x3000)) :=
  (vmFindInsertPoint_neighbours_iff vmrList_twoRegions (by decide) (by decide) (by decide)).mpr
    (by decide)

def noRegions : VmmState := { smallRna with addressSpaces := fun _ => ⟨0x1000, 0, 0, 0⟩ }

theorem vmrList_noRegions : VmrList noRegions 1 [] :=
  ⟨trivial, rfl, rfl, List.not_mem_nil, ⟨by simp, List.Pairwise.nil⟩, rfl, by decide⟩

/-- Its first region finds no place. -/
theorem first_region_refused : VmrList noRegions 1 [] ∧ 0x4000 < 0x5000 ∧
    (∀ q ∈ [], ¬Overlaps noRegions 0x4000 0x5000 q) ∧
    vmFindInsertPoint noRegions 1 0x4000 0x5000 ≠
      some (some (firstStartingFrom noRegions [] 0x5000, lastEndingBy noRegions [] 0x4000)) := by
  refine ⟨vmrList_noRegions, by decide, by simp, ?_⟩
  rw [vmFindInsertPoint_nil (by decide) (by decide) vmrList_noRegions]
  simp

section division

def kernelDivision : Nat := KR_MAKE_VIRTUAL KRNL_PML4_IDX 0 0 0 0

def IsKernelSpace (x : VmmState) (space : Nat) : Prop :=
  (x.addressSpaces space).paddrRoot = (x.addressSpaces x.kernelAddressSpace).paddrRoot

def InDivision (x y : VmmState) (space p : Nat) : Prop :=
  ∀ v, (y.regions p).vaddrStart ≤ v → v < (y.regions p).vaddrEnd →
    (IsKernelSpace x space ↔ kernelDivision ≤ v)

def DivisionKept (x : VmmState) (space s e flags : Nat) : Prop :=
  ∀ p y, vmAcquireRegion x space s e flags = some (p, y) → p ≠ 0 → InDivision x y space p

def NoNode (x : VmmState) : Prop := ∀ p y, rnaAcquireNode x = some (p, y) → p = 0

theorem divisionRefused_eq (hflags : hasFlag flags VMR_FLAG_NO_DIVISION_CHECK = false) :
    divisionRefused x space s flags = false ↔ (IsKernelSpace x space ↔ kernelDivision ≤ s) := by
  unfold divisionRefused IsKernelSpace kernelDivision
  rw [hflags, if_neg (by decide)]
  by_cases hkernel : (x.addressSpaces space).paddrRoot =
      (x.addressSpaces x.kernelAddressSpace).paddrRoot
  · rw [if_pos hkernel, iff_true_left hkernel]
    simp
  · rw [if_neg hkernel, iff_false_left hkernel]
    simp

theorem division_of_notRefused (hflags : hasFlag flags VMR_FLAG_NO_DIVISION_CHECK = false)
    (hearly : ¬RefusedEarly x space s e flags) : IsKernelSpace x space ↔ kernelDivision ≤ s := by
  rw [← divisionRefused_eq hflags]
  exact Bool.eq_false_of_not_eq_true fun hrefused => hearly (Or.inr (Or.inl hrefused))

theorem acquired_range (hspace : space ≠ 0) (hlist : VmrList x space nodes)
    (h : vmAcquireRegion x space s e flags = some (p, y)) (hp : p ≠ 0) :
    ¬RefusedEarly x space s e flags ∧ ¬NoPlace x s e nodes ∧ ¬NoNode x ∧
      (y.regions p).vaddrStart = s ∧ (y.regions p).vaddrEnd = e := by
  obtain ⟨⟨_, hearly, place, hfind⟩, _, _, z, hnode, rfl⟩ := vmAcquireRegion_linked h hp
  rw [vmFindInsertPoint_searched hearly hspace, hlist.root] at hfind
  refine ⟨hearly, fun hno => ?_, fun hno => hp (hno _ _ hnode), ?_⟩
  · rw [(searched_none_iff hlist).mpr hno] at hfind
    exact absurd hfind (by simp)
  · rw [linkRegion_self]
    exact ⟨rfl, rfl⟩

theorem acquired_of_not (hspace : space ≠ 0) (hlist : VmrList x space nodes)
    (hearly : ¬RefusedEarly x space s e flags) (hplace : ¬NoPlace x s e nodes) (hnode : ¬NoNode x) :
    ∃ p y, vmAcquireRegion x space s e flags = some (p, y) ∧ p ≠ 0 := by
  obtain ⟨res, hfind, _⟩ := hlist.search s e
  unfold NoNode at hnode
  push Not at hnode
  obtain ⟨p, y, hacq, hp⟩ := hnode
  rw [vmAcquireRegion_searched hearly hspace, hlist.root, hfind]
  cases res with
  | none => exact absurd ((searched_none_iff hlist).mp hfind) hplace
  | some place =>
    dsimp only
    rw [hacq]
    dsimp only
    rw [if_neg hp]
    exact ⟨p, _, rfl, hp⟩

/-- Only the start of a range is checked against the boundary: a range below it that ends behind
it is returned to any other address space, unless it is refused for another reason. -/
theorem divisionKept_iff (hlist : VmrList x space nodes) (hspace : space ≠ 0)
    (hflags : hasFlag flags VMR_FLAG_NO_DIVISION_CHECK = false) :
    DivisionKept x space s e flags ↔
      IsKernelSpace x space ∨ e ≤ kernelDivision ∨ RefusedEarly x space s e flags ∨
        NoPlace x s e nodes ∨ NoNode x := by
  constructor
  · intro hkept
    by_contra hnot
    simp only [not_or] at hnot
    obtain ⟨huser, hend, hearly, hplace, hnode⟩ := hnot
    obtain ⟨p, y, hcall, hp⟩ := acquired_of_not hspace hlist hearly hplace hnode
    obtain ⟨_, _, _, hs, he⟩ := acquired_range hspace hlist hcall hp
    have hdivision := division_of_notRefused hflags hearly
    have hstart : ¬kernelDivision ≤ s := fun hle => huser (hdivision.mpr hle)
    exact huser ((hkept p y hcall hp kernelDivision (by omega) (by omega)).mpr le_rfl)
  · intro hcond p y hcall hp v hv hv'
    obtain ⟨hearly, hplace, hnode, hs, he⟩ := acquired_range hspace hlist hcall hp
    rw [hs] at hv
    rw [he] at hv'
    have hdivision := division_of_notRefused hflags hearly
    rw [hdivision]
    have hcases : IsKernelSpace x space ∨ e ≤ kernelDivision := by tauto
    cases hcases with
    | inl hkernel =>
      have hstart := hdivision.mp hkernel
      exact iff_of_true hstart (hstart.trans hv)
    | inr hend => exact iff_of_false (by omega) (by omega)

theorem divisionKept_iff_twoRegions : DivisionKept twoRegions 1 0x20000 0x21000 0 :=
  (divisionKept_iff vmrList_twoRegions (by decide) (by decide)).mpr (Or.inr (Or.inl (by decide)))

/-- A region from 0x20000 up to the second page of the kernel's division. -/
theorem region_across_divisions : VmrList twoRegions 1 [64, 128] ∧
    hasFlag 0 VMR_FLAG_NO_DIVISION_CHECK = false ∧ ¬IsKernelSpace twoRegions 1 ∧
    ¬DivisionKept twoRegions 1 0x20000 (kernelDivision + 0x1000) 0 := by
  have huser : ¬IsKernelSpace twoRegions 1 := by
    unfold IsKernelSpace
    decide
  refine ⟨vmrList_twoRegions, by decide, huser, fun hkept => ?_⟩
  have h : (vmAcquireRegion twoRegions 1 0x20000 (kernelDivision + 0x1000) 0).map Prod.fst =
      some (virtAddrBase + 0x100040) := by
    decide +kernel
  obtain ⟨⟨p, y⟩, hcall, rfl⟩ := Option.map_eq_some_iff.mp h
  obtain ⟨_, _, _, hs, he⟩ := acquired_range (by decide) vmrList_twoRegions hcall (by decide)
  have hinside := hkept _ y hcall (by decide) kernelDivision (by rw [hs]; decide)
    (by rw [he]; decide)
  exact huser (hinside.mpr le_rfl)

end division

end Ych.Virtmemmgmt
