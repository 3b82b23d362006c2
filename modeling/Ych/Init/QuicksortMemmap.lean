import Ych.Base.LomutoSplit
import Ych.Init.KrInitMemmap

/-! The in-place quicksort of the memory map, by segments of the array: what a partition leaves,
and which maps are sorted without leaving the array. -/
namespace Ych.Memmap
open Words LomutoSplit Physmemmgmt

abbrev base (d : KrMemoryDescriptor) : Nat := d.physicalBase

variable {map out : Descriptors} {start limit fuel : Nat}

theorem int32_of_lt {n : Nat} (h : n < 2 ^ 31) : int32 n = n := by
  unfold int32
  omega

theorem entryAt_nat (a : Descriptors) (j : Nat) : entryAt a (j : Int) = a[j]? := by
  rw [entryAt, if_pos (Int.natCast_nonneg j), Int.toNat_natCast]

theorem entryAt_append (pre post : Descriptors) (d : KrMemoryDescriptor) :
    entryAt (pre ++ d :: post) (pre.length : Nat) = some d := by
  rw [entryAt_nat, List.getElem?_append_right le_rfl, Nat.sub_self, List.getElem?_cons_zero]

theorem set_append (pre post : Descriptors) (d e : KrMemoryDescriptor) :
    (pre ++ d :: post).set pre.length e = pre ++ e :: post := by
  rw [List.set_append_right pre.length e le_rfl, Nat.sub_self, List.set_cons_zero]

theorem krSwapMemdescs_self (pre post : Descriptors) (d : KrMemoryDescriptor) :
    krSwapMemdescs (pre ++ d :: post) (pre.length : Nat) (pre.length : Nat) =
      some (pre ++ d :: post) := by
  rw [krSwapMemdescs, entryAt_append]
  simp only [Int.toNat_natCast]
  rw [set_append, set_append]

theorem krSwapMemdescs_apart (pre mid post : Descriptors) (d e : KrMemoryDescriptor) :
    krSwapMemdescs (pre ++ d :: (mid ++ e :: post)) (pre.length : Nat)
      (pre.length + 1 + mid.length : Nat) = some (pre ++ e :: (mid ++ d :: post)) := by
  have hshape : ∀ x y : KrMemoryDescriptor,
      pre ++ x :: (mid ++ y :: post) = (pre ++ x :: mid) ++ y :: post := by simp
  have hlen : ∀ x : KrMemoryDescriptor, pre.length + 1 + mid.length = (pre ++ x :: mid).length := by
    intro x
    rw [List.length_append, List.length_cons]
    omega
  have hright : entryAt (pre ++ d :: (mid ++ e :: post)) (pre.length + 1 + mid.length : Nat) =
      some e := by
    rw [hshape, hlen d]
    exact entryAt_append _ _ _
  rw [krSwapMemdescs, entryAt_append, hright]
  simp only [Int.toNat_natCast]
  rw [set_append, hshape, hlen e, set_append, ← hshape]

theorem krSwapMemdescs_rotate (pre high post : Descriptors) (d : KrMemoryDescriptor) :
    ∃ high', high'.Perm high ∧
      krSwapMemdescs (pre ++ (high ++ d :: post)) (pre.length : Nat)
        (pre.length + high.length : Nat) = some (pre ++ d :: (high' ++ post)) := by
  cases high with
  | nil => exact ⟨[], List.Perm.refl _, krSwapMemdescs_self pre post d⟩
  | cons h high =>
    refine ⟨high ++ [h], List.perm_append_singleton h high, ?_⟩
    have hlen : pre.length + (h :: high).length = pre.length + 1 + high.length := by
      rw [List.length_cons]
      omega
    rw [hlen, List.cons_append, krSwapMemdescs_apart]
    simp

/-- The loop of the partition: the entries below the pivot keep their order, those above are
moved behind them. -/
theorem krPartDescFrom_spec (pivot : KrMemoryDescriptor) (low high rest post : Descriptors)
    (hlimit : limit = low.length + high.length + rest.length) :
    ∃ high', high'.Perm (high ++ highs base pivot rest) ∧
      krPartDescFrom (base pivot) limit rest.length (((low.length : Nat) : Int) - 1)
        (low ++ (high ++ (rest ++ post))) =
      some ((((low ++ lows base pivot rest).length : Nat) : Int) - 1,
        (low ++ lows base pivot rest) ++ (high' ++ post)) := by
  induction rest generalizing low high with
  | nil => exact ⟨high, by simp [highs], by simp [krPartDescFrom, lows]⟩
  | cons d rest ih =>
    have hj : limit - (rest.length + 1) = low.length + high.length := by
      rw [hlimit, List.length_cons]
      omega
    have hentry : entryAt (low ++ (high ++ (d :: rest ++ post)))
        (limit - (rest.length + 1) : Nat) = some d := by
      rw [hj, ← List.length_append, ← List.append_assoc, List.cons_append]
      exact entryAt_append _ _ _
    rw [List.length_cons, krPartDescFrom, hentry]
    dsimp only
    by_cases hlt : base d < base pivot
    · obtain ⟨high', hperm, hswap⟩ := krSwapMemdescs_rotate low high (rest ++ post) d
      have hi : ((low.length : Nat) : Int) - 1 + 1 = (low.length : Nat) := by omega
      rw [if_pos hlt, hi, hj, List.cons_append, hswap]
      dsimp only
      obtain ⟨high'', hperm', hrun⟩ := ih (low ++ [d]) high' (by
        rw [hlimit, List.length_append, List.length_cons, List.length_cons, List.length_nil,
          hperm.length_eq]
        omega)
      have hlows : lows base pivot (d :: rest) = d :: lows base pivot rest := lows_cons_of_lt hlt
      have hhighs : highs base pivot (d :: rest) = highs base pivot rest := by
        simp [highs, hlt]
      refine ⟨high'', ?_, ?_⟩
      · rw [hhighs]
        exact hperm'.trans (hperm.append_right _)
      · have hstart : ((low.length : Nat) : Int) = (((low ++ [d]).length : Nat) : Int) - 1 := by
          rw [List.length_append, List.length_singleton]
          omega
        have hshape : low ++ d :: (high' ++ (rest ++ post)) =
            (low ++ [d]) ++ (high' ++ (rest ++ post)) := by simp
        rw [hstart, hshape, hrun, hlows]
        simp
    · rw [if_neg hlt]
      obtain ⟨high', hperm, hrun⟩ := ih low (high ++ [d]) (by
        rw [hlimit, List.length_append, List.length_cons, List.length_cons, List.length_nil]
        omega)
      have hlows : lows base pivot (d :: rest) = lows base pivot rest := by
        simp [lows, hlt]
      have hhighs : highs base pivot (d :: rest) = d :: highs base pivot rest := by
        simp [highs, not_lt.mp hlt]
      refine ⟨high', ?_, ?_⟩
      · rw [hhighs]
        simpa using hperm
      · rw [hlows, ← hrun]
        simp

/-- A segment with its pivot last is split around it, and nothing else is touched. -/
theorem krPartDescarray_spec (pre rest post : Descriptors) (pivot : KrMemoryDescriptor)
    (hint : pre.length + rest.length < 2 ^ 31) :
    ∃ high, high.Perm (highs base pivot rest) ∧
      krPartDescarray (pre ++ (rest ++ pivot :: post)) pre.length (pre.length + rest.length) =
      some (pre.length + (lows base pivot rest).length,
        pre ++ lows base pivot rest ++ pivot :: (high ++ post)) := by
  have hpivot : entryAt (pre ++ (rest ++ pivot :: post)) (pre.length + rest.length : Nat) =
      some pivot := by
    rw [← List.length_append, ← List.append_assoc]
    exact entryAt_append _ _ _
  have hstart : int32 pre.length = pre.length := int32_of_lt (by omega)
  obtain ⟨high, hperm, hrun⟩ := krPartDescFrom_spec pivot pre [] rest (pivot :: post)
    (by simp : pre.length + rest.length = _)
  rw [List.nil_append] at hperm hrun
  obtain ⟨high', hperm', hswap⟩ :=
    krSwapMemdescs_rotate (pre ++ lows base pivot rest) high post pivot
  have hlen : (pre ++ lows base pivot rest).length + high.length = pre.length + rest.length := by
    have h := (lows_perm_highs base pivot rest).length_eq
    rw [List.length_append] at h ⊢
    rw [hperm.length_eq]
    omega
  refine ⟨high', hperm'.trans hperm, ?_⟩
  have hi : (((pre ++ lows base pivot rest).length : Nat) : Int) - 1 + 1 =
      ((pre ++ lows base pivot rest).length : Nat) := by omega
  have hret : ((((pre ++ lows base pivot rest).length : Nat) : Int) % 2 ^ 32).toNat =
      pre.length + (lows base pivot rest).length := by
    rw [List.length_append] at hlen ⊢
    omega
  rw [krPartDescarray, hpivot, Nat.add_sub_cancel_left, hstart]
  dsimp only
  rw [hrun]
  dsimp only
  rw [hi, ← hlen, hswap]
  dsimp only
  rw [hret]

theorem LeftSafe.lows {rest : Descriptors} {pivot : KrMemoryDescriptor} (hne : rest ≠ [])
    (h : LeftSafe base (rest ++ [pivot])) : LeftSafe base (lows base pivot rest) := by
  generalize heq : rest ++ [pivot] = l at h
  cases h with
  | single d =>
    have hlen := congrArg List.length heq
    rw [List.length_append, List.length_singleton, List.length_singleton] at hlen
    exact absurd (List.eq_nil_of_length_eq_zero (by omega)) hne
  | split l p hl =>
    obtain ⟨rfl, hp⟩ := List.append_inj' heq rfl
    obtain rfl := List.singleton_inj.mp hp
    exact hl

def Sorted (l : Descriptors) : Prop := l.Pairwise fun d e => base d ≤ base e

theorem Sorted.join {left right : Descriptors} {pivot : KrMemoryDescriptor} (hl : Sorted left)
    (hr : Sorted right) (hlow : ∀ d ∈ left, base d < base pivot)
    (hhigh : ∀ d ∈ right, base pivot ≤ base d) : Sorted (left ++ pivot :: right) := by
  refine List.pairwise_append.mpr ⟨hl, List.pairwise_cons.mpr ⟨hhigh, hr⟩, fun d hd e he => ?_⟩
  rcases List.mem_cons.mp he with rfl | he
  · exact (hlow d hd).le
  · exact (hlow d hd).le.trans (hhigh e he)

theorem join_perm {l r lower upper whole : Descriptors} (hl : l.Perm lower) (hr : r.Perm upper)
    (h : (lower ++ upper).Perm whole) (p : KrMemoryDescriptor) :
    (l ++ p :: r).Perm (whole ++ [p]) :=
  calc (l ++ p :: r).Perm (p :: (l ++ r)) := List.perm_middle
    List.Perm _ (p :: (lower ++ upper)) := (hl.append hr).cons p
    List.Perm _ (p :: whole) := h.cons p
    List.Perm _ (whole ++ [p]) := (List.perm_append_singleton p whole).symm

theorem sorted_of_length_le_one {l : Descriptors} (h : l.length ≤ 1) : Sorted l := by
  unfold Sorted
  match l, h with
  | [], _ => exact List.Pairwise.nil
  | [d], _ => exact List.pairwise_singleton _ d

def SortsBetween (call : Descriptors → Option Descriptors) (pre seg post : Descriptors) : Prop :=
  ∃ seg', call (pre ++ (seg ++ post)) = some (pre ++ (seg' ++ post)) ∧ seg'.Perm seg ∧ Sorted seg'

section
variable {left right : Descriptors → Option Descriptors} {pre low high post rest : Descriptors}
  {pivot : KrMemoryDescriptor}

theorem sorted_parts {l r : Descriptors} (hl : l.Perm low) (hr : r.Perm high) (hsl : Sorted l)
    (hsr : Sorted r) (hlow : ∀ d ∈ low, base d < base pivot)
    (hhigh : ∀ d ∈ high, base pivot ≤ base d) (hperm : (low ++ high).Perm rest) :
    (l ++ pivot :: r).Perm (rest ++ [pivot]) ∧ Sorted (l ++ pivot :: r) :=
  ⟨join_perm hl hr hperm pivot, hsl.join hsr (fun d hd => hlow d (hl.mem_iff.mp hd))
    fun d hd => hhigh d (hr.mem_iff.mp hd)⟩

theorem SortsBetween.join (hleft : ∀ q, SortsBetween left pre low q)
    (hright : ∀ l, l.length = low.length → SortsBetween right (pre ++ l ++ [pivot]) high post)
    (hlow : ∀ d ∈ low, base d < base pivot) (hhigh : ∀ d ∈ high, base pivot ≤ base d)
    (hperm : (low ++ high).Perm rest) :
    (∃ map seg', left (pre ++ low ++ pivot :: (high ++ post)) = some map ∧
      right map = some (pre ++ (seg' ++ post)) ∧ seg'.Perm (rest ++ [pivot]) ∧ Sorted seg') ∧
    ∃ map seg', right (pre ++ low ++ pivot :: (high ++ post)) = some map ∧
      left map = some (pre ++ (seg' ++ post)) ∧ seg'.Perm (rest ++ [pivot]) ∧ Sorted seg' := by
  have hshape : ∀ l r : Descriptors,
      pre ++ l ++ pivot :: (r ++ post) = pre ++ l ++ [pivot] ++ (r ++ post) := by simp
  have hshape' : ∀ l r : Descriptors,
      pre ++ l ++ pivot :: (r ++ post) = pre ++ (l ++ (pivot :: (r ++ post))) := by simp
  have hwhole : ∀ l r : Descriptors,
      pre ++ l ++ pivot :: (r ++ post) = pre ++ (l ++ pivot :: r ++ post) := by simp
  constructor
  · obtain ⟨l, hrun, hl, hsl⟩ := hleft (pivot :: (high ++ post))
    obtain ⟨r, hrun', hr, hsr⟩ := hright l hl.length_eq
    rw [← hshape', ← hshape'] at hrun
    rw [← hshape, ← hshape, hwhole l r] at hrun'
    exact ⟨_, _, hrun, hrun', sorted_parts hl hr hsl hsr hlow hhigh hperm⟩
  · obtain ⟨r, hrun', hr, hsr⟩ := hright low rfl
    obtain ⟨l, hrun, hl, hsl⟩ := hleft (pivot :: (r ++ post))
    rw [← hshape, ← hshape] at hrun'
    rw [← hshape', ← hshape', hwhole l r] at hrun
    exact ⟨_, _, hrun', hrun, sorted_parts hl hr hsl hsr hlow hhigh hperm⟩

end

/-- A segment is sorted in place unless it starts the array and is split wrongly. -/
theorem krQuicksortMemmap_sorts (fuel : Nat) (pre seg post : Descriptors) (limit : Nat)
    (hfuel : seg.length < fuel) (hint : pre.length + seg.length ≤ 2 ^ 31)
    (hlimit : limit + 1 = pre.length + seg.length) (hsafe : pre ≠ [] ∨ LeftSafe base seg) :
    ∃ seg', krQuicksortMemmap fuel (pre ++ (seg ++ post)) pre.length limit =
      some (pre ++ (seg' ++ post)) ∧ seg'.Perm seg ∧ Sorted seg' := by
  induction fuel generalizing pre seg post limit with
  | zero => exact absurd hfuel (Nat.not_lt_zero _)
  | succ fuel ih =>
    rw [krQuicksortMemmap]
    by_cases hlt : pre.length < limit
    · obtain ⟨rest, pivot, rfl⟩ := (List.eq_nil_or_concat' seg).resolve_left (by
        rintro rfl
        rw [List.length_nil] at hlimit
        omega)
      rw [List.length_append, List.length_singleton] at hfuel hint hlimit
      have hrest : rest ≠ [] := by
        rintro rfl
        rw [List.length_nil] at hlimit
        omega
      have hlim : limit = pre.length + rest.length := by omega
      obtain ⟨high, hhigh, hpart⟩ := krPartDescarray_spec pre rest post pivot (by omega)
      have hlen := (lows_perm_highs base pivot rest).length_eq
      rw [List.length_append, ← hhigh.length_eq] at hlen
      have hsafe' : pre ≠ [] ∨ LeftSafe base (lows base pivot rest) :=
        hsafe.imp_right fun h => LeftSafe.lows hrest h
      have hpos : 0 < pre.length + (lows base pivot rest).length := by
        obtain h | h := hsafe'
        · exact Nat.add_pos_left (List.length_pos_iff.mpr h) _
        · exact Nat.add_pos_right _ (List.length_pos_iff.mpr h.ne_nil)
      have hleft : ∀ q, SortsBetween (krQuicksortMemmap fuel · pre.length
          (pre.length + (lows base pivot rest).length - 1)) pre (lows base pivot rest) q :=
        fun q => ih pre (lows base pivot rest) q _ (by omega) (by omega) (by omega) hsafe'
      have hright : ∀ l : Descriptors, l.length = (lows base pivot rest).length →
          SortsBetween (krQuicksortMemmap fuel · (pre.length + (lows base pivot rest).length + 1)
            limit) (pre ++ l ++ [pivot]) high post := by
        intro l hl
        have hindex : (pre ++ l ++ [pivot]).length =
            pre.length + (lows base pivot rest).length + 1 := by
          simp only [List.length_append, List.length_singleton]
          omega
        rw [← hindex]
        exact ih (pre ++ l ++ [pivot]) high post limit (by omega) (by omega) (by omega)
          (Or.inl (List.append_ne_nil_of_right_ne_nil _ (List.cons_ne_nil _ _)))
      have hsub : sub32 (pre.length + (lows base pivot rest).length) 1 =
          pre.length + (lows base pivot rest).length - 1 := sub32_of_le hpos (by omega)
      have hnext : wrap32 (pre.length + (lows base pivot rest).length + 1) =
          pre.length + (lows base pivot rest).length + 1 := wrap32_of_lt (by omega)
      have hlow : ∀ d ∈ lows base pivot rest, base d < base pivot := fun d hd => (mem_lows.mp hd).2
      have habove : ∀ d ∈ high, base pivot ≤ base d := fun d hd => by
        have := (List.mem_filter.mp (hhigh.mem_iff.mp hd)).2
        simpa using this
      have hperm : (lows base pivot rest ++ high).Perm rest :=
        (hhigh.append_left _).trans (lows_perm_highs base pivot rest)
      obtain ⟨hleftFirst, hrightFirst⟩ := SortsBetween.join hleft hright hlow habove hperm
      rw [if_pos hlt, hlim, List.append_assoc rest, List.singleton_append, hpart, ← hlim]
      dsimp only
      rw [hsub, hnext]
      split
      · obtain ⟨map, seg', hrun, hsorts⟩ := hleftFirst
        rw [hrun]
        exact ⟨seg', hsorts⟩
      · obtain ⟨map, seg', hrun, hsorts⟩ := hrightFirst
        rw [hrun]
        exact ⟨seg', hsorts⟩
    · exact ⟨seg, by rw [if_neg hlt], List.Perm.refl seg, sorted_of_length_le_one (by omega)⟩

theorem krQuicksortMemmap_mono {fuel' : Nat} (hle : fuel ≤ fuel')
    (h : krQuicksortMemmap fuel map start limit = some out) :
    krQuicksortMemmap fuel' map start limit = some out := by
  induction fuel generalizing fuel' map start limit out with
  | zero => exact absurd h (by simp [krQuicksortMemmap])
  | succ fuel ih =>
    obtain ⟨fuel', rfl⟩ : ∃ n, fuel' = n + 1 := ⟨fuel' - 1, by omega⟩
    have hle' := Nat.le_of_succ_le_succ hle
    rw [krQuicksortMemmap] at h ⊢
    split_ifs at h ⊢ with hlt
    · cases hpart : krPartDescarray map start limit with
      | none =>
        rw [hpart] at h
        exact absurd h (by simp)
      | some r =>
        rw [hpart] at h
        dsimp only at h ⊢
        split_ifs at h ⊢ with hside
        · cases hfirst : krQuicksortMemmap fuel r.2 start (sub32 r.1 1) with
          | none =>
            rw [hfirst] at h
            exact absurd h (by simp)
          | some map' =>
            rw [hfirst] at h
            rw [ih hle' hfirst]
            exact ih hle' h
        · cases hfirst : krQuicksortMemmap fuel r.2 (wrap32 (r.1 + 1)) limit with
          | none =>
            rw [hfirst] at h
            exact absurd h (by simp)
          | some map' =>
            rw [hfirst] at h
            rw [ih hle' hfirst]
            exact ih hle' h
    · exact h

/-- With the pivot at index 0 the left range is `[0, 2 ^ 32 - 1]`. -/
theorem krQuicksortMemmap_whole (h : map.length < 2 ^ 32) :
    krQuicksortMemmap fuel map 0 (sub32 0 1) = none := by
  cases fuel with
  | zero => rfl
  | succ fuel =>
    have hsub : sub32 0 1 = 2 ^ 32 - 1 := by decide
    have hout : entryAt map ((2 ^ 32 - 1 : Nat) : Int) = none := by
      rw [entryAt_nat, List.getElem?_eq_none (by omega)]
    rw [hsub, krQuicksortMemmap, if_pos (by decide), krPartDescarray, hout]

theorem krQuicksortMemmap_unsafe (fuel : Nat) (seg post : Descriptors) (limit : Nat)
    (hfuel : seg.length < fuel) (hne : seg ≠ []) (hint : (seg ++ post).length ≤ 2 ^ 31)
    (hlimit : limit + 1 = seg.length) (hnot : ¬LeftSafe base seg) :
    krQuicksortMemmap fuel (seg ++ post) 0 limit = none := by
  induction fuel generalizing seg post limit with
  | zero => exact absurd hfuel (Nat.not_lt_zero _)
  | succ fuel ih =>
    obtain ⟨rest, pivot, rfl⟩ := (List.eq_nil_or_concat' seg).resolve_left hne
    have hrest : rest ≠ [] := by
      rintro rfl
      exact hnot (LeftSafe.single pivot)
    have hpos := List.length_pos_iff.mpr hrest
    simp only [List.length_append, List.length_singleton] at hfuel hint hlimit
    obtain ⟨high, hhigh, hpart⟩ := krPartDescarray_spec [] rest post pivot (by
      rw [List.length_nil]
      omega)
    have hlen := (lows_perm_highs base pivot rest).length_eq
    rw [List.length_append, ← hhigh.length_eq] at hlen
    have hlim : limit = rest.length := by omega
    simp only [List.nil_append, List.length_nil, Nat.zero_add] at hpart
    rw [krQuicksortMemmap, if_pos (by omega), List.append_assoc, List.singleton_append, hlim, hpart]
    dsimp only
    by_cases hnil : lows base pivot rest = []
    · have hlt : sub32 0 0 < sub32 rest.length 0 := by
        unfold sub32
        omega
      rw [hnil, List.length_nil, if_pos hlt, krQuicksortMemmap_whole]
      rw [hnil, List.length_nil] at hlen
      simp only [List.nil_append, List.length_cons, List.length_append]
      omega
    · have hnot' : ¬LeftSafe base (lows base pivot rest) := fun h =>
        hnot (LeftSafe.split rest pivot h)
      have hlow := List.length_pos_iff.mpr hnil
      have hsub : sub32 (lows base pivot rest).length 1 = (lows base pivot rest).length - 1 :=
        sub32_of_le hlow (by omega)
      have hnext : wrap32 ((lows base pivot rest).length + 1) =
          (lows base pivot rest).length + 1 := wrap32_of_lt (by omega)
      have hleft := fun q : Descriptors => fun hq : q.length = high.length + post.length =>
        ih (lows base pivot rest) (pivot :: q)
          ((lows base pivot rest).length - 1) (by omega) hnil (by
            simp only [List.length_append, List.length_cons]
            omega) (by omega) hnot'
      obtain ⟨r', hright, hperm, _⟩ := krQuicksortMemmap_sorts fuel
        (lows base pivot rest ++ [pivot]) high post rest.length (by omega)
        (by simp only [List.length_append, List.length_singleton]; omega)
        (by simp only [List.length_append, List.length_singleton]; omega)
        (Or.inl (List.append_ne_nil_of_right_ne_nil _ (List.cons_ne_nil _ _)))
      rw [hsub, hnext]
      split
      · rw [hleft (high ++ post) List.length_append]
      · have hindex : (lows base pivot rest ++ [pivot]).length =
            (lows base pivot rest).length + 1 := by
          rw [List.length_append, List.length_singleton]
        have hshape : ∀ r : Descriptors, lows base pivot rest ++ pivot :: (r ++ post) =
            lows base pivot rest ++ [pivot] ++ (r ++ post) := by simp
        rw [hshape, ← hindex, hright]
        dsimp only
        rw [← hshape, hleft (r' ++ post) (by rw [List.length_append, hperm.length_eq])]

def SortsInPlace (map : Descriptors) : Prop :=
  ∃ fuel out, krQuicksortMemmap fuel map 0 (map.length - 1) = some out ∧ out.Perm map ∧ Sorted out

/-- A map is sorted in place exactly when its lowest entry stands alone and one of the next
lowest ones comes behind it. Otherwise the sort goes on past the end of memory. -/
theorem krQuicksortMemmap_iff (hne : map ≠ []) (hint : map.length ≤ 2 ^ 31) :
    SortsInPlace map ↔ map.length = 1 ∨ LeastInside base map := by
  have hpos := List.length_pos_iff.mpr hne
  rw [← leftSafe_iff]
  constructor
  · rintro ⟨fuel, out, hrun, _⟩
    by_contra hnot
    have hnone := krQuicksortMemmap_unsafe (fuel + map.length + 1) map []
      (map.length - 1) (by omega) hne (by simpa using hint) (by omega) hnot
    rw [List.append_nil, krQuicksortMemmap_mono (by omega) hrun] at hnone
    exact absurd hnone (by simp)
  · intro hsafe
    obtain ⟨out, hrun, hperm, hsorted⟩ := krQuicksortMemmap_sorts (map.length + 1) [] map []
      (map.length - 1) (by omega) (by simpa using hint)
      (by rw [List.length_nil]; omega) (Or.inr hsafe)
    simp only [List.nil_append, List.append_nil, List.length_nil] at hrun
    exact ⟨map.length + 1, out, hrun, hperm, hsorted⟩

def freeEntry (physicalBase : Nat) : KrMemoryDescriptor :=
  ⟨physicalBase, 1, 0, KR_MEMORY_TYPE_CONVENTIONAL_MEMORY, 0⟩

theorem krQuicksortMemmap_iff_three :
    SortsInPlace [freeEntry 0x2000, freeEntry 0, freeEntry 0x1000] :=
  (krQuicksortMemmap_iff (by simp) (by decide)).mpr
    (Or.inr ⟨[freeEntry 0x2000], freeEntry 0, [freeEntry 0x1000], freeEntry 0x1000, rfl, by simp,
      by decide, by decide⟩)

/-- Two entries, the lower one last: the sort leaves the array. -/
theorem two_entries_out_of_order : ¬SortsInPlace [freeEntry 0x1000, freeEntry 0] := by
  rintro ⟨fuel, out, hrun, _⟩
  have hnot : ¬LeftSafe base [freeEntry 0x1000, freeEntry 0] := fun h =>
    (LeftSafe.lows (by simp) h : LeftSafe base (lows base (freeEntry 0) [freeEntry 0x1000])).ne_nil
      (by decide)
  have hnone := krQuicksortMemmap_unsafe (fuel + 3) [freeEntry 0x1000, freeEntry 0] [] 1 (by simp)
    (by simp) (by decide) rfl hnot
  have hrun' : krQuicksortMemmap fuel [freeEntry 0x1000, freeEntry 0] 0 1 = some out := hrun
  rw [List.append_nil, krQuicksortMemmap_mono (by omega) hrun'] at hnone
  exact absurd hnone (by simp)

end Ych.Memmap
