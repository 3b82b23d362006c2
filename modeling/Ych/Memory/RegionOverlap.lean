import Mathlib.Order.Interval.Set.LinearOrder
import Ych.Memory.VmRegionList

/-! The overlap test over a whole region list. It stops at the first region that starts behind the
range, which the order of the list allows. -/
namespace Ych.Virtmemmgmt
open Links

variable {x y : VmmState} {nodes : List Nat} {space s e flags p : Nat}

def regionRange (x : VmmState) (p : Nat) : Set Nat :=
  Set.Ico (x.regions p).vaddrStart (x.regions p).vaddrEnd

theorem overlaps_iff (hse : s < e) (hp : (x.regions p).vaddrStart < (x.regions p).vaddrEnd) :
    Overlaps x s e p ↔ (Set.Ico s e ∩ regionRange x p).Nonempty := by
  simp only [Overlaps, regionRange, Set.Ico_inter_Ico, Set.nonempty_Ico, sup_lt_iff, lt_inf_iff]
  omega

theorem ordered_iff : Ordered x nodes ↔
    (∀ p ∈ nodes, (x.regions p).vaddrStart < (x.regions p).vaddrEnd) ∧
    nodes.Pairwise (fun p q => (x.regions p).vaddrStart ≤ (x.regions q).vaddrStart) ∧
    nodes.Pairwise fun p q => ¬(regionRange x p ∩ regionRange x q).Nonempty := by
  constructor
  · intro h
    refine ⟨h.ranges, h.sorted.imp_of_mem fun hp _ hle => ?_, h.sorted.imp fun hle => ?_⟩
    · have hrange := h.ranges _ hp
      omega
    · simp only [regionRange, Set.Ico_inter_Ico, Set.nonempty_Ico, sup_lt_iff, lt_inf_iff]
      omega
  · intro ⟨hranges, hstarts, hdisjoint⟩
    refine ⟨hranges, (hstarts.and hdisjoint).imp_of_mem fun hp hq hboth => ?_⟩
    have hrange := hranges _ hp
    have hrange' := hranges _ hq
    simp only [regionRange, Set.Ico_inter_Ico, Set.nonempty_Ico, sup_lt_iff, lt_inf_iff] at hboth
    omega

theorem vmVrangeOverlapsRegion_eq (hp : p ≠ 0) (hse : s < e) :
    vmVrangeOverlapsRegion x p s e = decide (Overlaps x s e p) := by
  rw [Bool.eq_iff_iff, decide_eq_true_eq]
  simp [vmVrangeOverlapsRegion, Overlaps, hp, Nat.not_le.mpr hse]

theorem vmVrangeOverlapsAnyRegionsFrom_eq {b fuel : Nat}
    (hl : Linked (pPrevOf x) (pNextOf x) b nodes 0) (hnil : 0 ∉ nodes) (ho : Ordered x nodes)
    (hf : nodes.length < fuel) (hse : s < e) :
    vmVrangeOverlapsAnyRegionsFrom x s e fuel (nodes.headD 0) =
      some (decide (∃ p ∈ nodes, Overlaps x s e p)) := by
  induction nodes generalizing b fuel with
  | nil =>
    cases fuel with
    | zero => simp at hf
    | succ fuel => simp [vmVrangeOverlapsAnyRegionsFrom]
  | cons p nodes ih =>
    cases fuel with
    | zero => simp at hf
    | succ fuel =>
      obtain ⟨_, hnext, hrest⟩ := hl
      simp only [List.mem_cons, not_or] at hnil
      have hp : p ≠ 0 := Ne.symm hnil.1
      have hih := ih hrest hnil.2 ho.tail (Nat.lt_of_succ_lt_succ hf)
      change (x.regions p).pNext = _ at hnext
      rw [List.headD_cons, vmVrangeOverlapsAnyRegionsFrom, if_neg hp,
        vmVrangeOverlapsRegion_eq hp hse, hnext, hih]
      by_cases hstop : e ≤ (x.regions p).vaddrStart
      · simp only [if_pos hstop, decide_eq_false (ho.not_overlaps hstop)]
      · by_cases hover : Overlaps x s e p
        · simp [hstop, hover]
        · simp [hstop, hover]

/-- A list that is well formed is searched as if the test were made for all of its regions. -/
theorem vmVrangeOverlapsAnyRegions_eq (h : VmrList x space nodes) (hspace : space ≠ 0)
    (hse : s < e) : vmVrangeOverlapsAnyRegions x space s e =
      some (decide (∃ p ∈ nodes, Overlaps x s e p)) := by
  rw [vmVrangeOverlapsAnyRegions, if_neg hspace, if_neg (Nat.not_le.mpr hse), h.root]
  exact vmVrangeOverlapsAnyRegionsFrom_eq h.linked h.nonNull h.ordered h.length_lt hse

/-- The test is answered, and its answer is whether the range shares an address with a region. -/
theorem vmVrangeOverlapsAnyRegions_iff (h : VmrList x space nodes) (hspace : space ≠ 0)
    (s e : Nat) : ∃ b, vmVrangeOverlapsAnyRegions x space s e = some b ∧
      (b = true ↔ s < e ∧ ∃ p ∈ nodes, (Set.Ico s e ∩ regionRange x p).Nonempty) := by
  by_cases hse : s < e
  · refine ⟨_, vmVrangeOverlapsAnyRegions_eq h hspace hse, ?_⟩
    rw [decide_eq_true_eq, and_iff_right hse]
    exact exists_congr fun p => and_congr_right fun hp => overlaps_iff hse (h.ordered.ranges p hp)
  · refine ⟨false, ?_, by simp [hse]⟩
    rw [vmVrangeOverlapsAnyRegions, if_neg hspace, if_pos (Nat.le_of_not_lt hse)]

/-- The hole between the two regions, from the end of the one to the start of the other. -/
theorem vmVrangeOverlapsAnyRegions_iff_twoRegions :
    ∃ b, vmVrangeOverlapsAnyRegions twoRegions 1 0x3000 0x10000 = some b ∧
      (b = true ↔ 0x3000 < 0x10000 ∧
        ∃ p ∈ [64, 128], (Set.Ico 0x3000 0x10000 ∩ regionRange twoRegions p).Nonempty) :=
  vmVrangeOverlapsAnyRegions_iff vmrList_twoRegions (by decide) 0x3000 0x10000

/-- The test that `VmAcquireRegion` does not make: a range it clears is inserted as it should be,
if the node for it is a new one. -/
theorem acquireSound_of_clear (h : VmrList x space nodes) (hne : nodes ≠ []) (hspace : space ≠ 0)
    (hse : s < e) (hclear : vmVrangeOverlapsAnyRegions x space s e = some false)
    (hnode : rnaAcquireNode x = some (p, y)) (hnew : p ∉ nodes)
    (hsame : ∀ q ∈ nodes, y.regions q = x.regions q) (hcount : nodes.length + 1 < 2 ^ 32) :
    AcquireSound x space nodes s e flags := by
  have hapart : ∀ q ∈ nodes, ¬Overlaps x s e q := by
    simpa [vmVrangeOverlapsAnyRegions_eq h hspace hse] using hclear
  rw [acquireSound_iff h hne hspace, Admissible]
  exact Or.inr (Or.inr ⟨p, y, hnode, Or.inr ⟨hapart, hnew, hsame, hcount⟩⟩)

end Ych.Virtmemmgmt
