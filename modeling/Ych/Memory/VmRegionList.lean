import Ych.Base.Links
import Ych.Memory.Virtmemmgmt
import Ych.Memory.RnaRun

/-! The region list over runs of acquisitions. The search for an insert point refuses a range
exactly when it overlaps the last region, and may put it past any other it overlaps. -/
namespace Ych.Virtmemmgmt
open Words Links Runs Krnlmem

variable {x y : VmmState} {nodes : List Nat}

def pPrevOf (x : VmmState) (p : Nat) : Nat := (x.regions p).pPrev
def pNextOf (x : VmmState) (p : Nat) : Nat := (x.regions p).pNext

def Overlaps (x : VmmState) (s e p : Nat) : Prop :=
  s < (x.regions p).vaddrEnd ∧ (x.regions p).vaddrStart < e

instance (x : VmmState) (s e p : Nat) : Decidable (Overlaps x s e p) :=
  inferInstanceAs (Decidable (_ ∧ _))

/-- The regions at `nodes` are not empty, and each ends before all later ones start. -/
structure Ordered (x : VmmState) (nodes : List Nat) : Prop where
  ranges : ∀ p ∈ nodes, (x.regions p).vaddrStart < (x.regions p).vaddrEnd
  sorted : nodes.Pairwise fun p q => (x.regions p).vaddrEnd ≤ (x.regions q).vaddrStart

structure VmrList (x : VmmState) (pSpace : Nat) (nodes : List Nat) : Prop where
  linked : Linked (pPrevOf x) (pNextOf x) 0 nodes 0
  root : (x.addressSpaces pSpace).pRootVMR = nodes.headD 0
  tail : (x.addressSpaces pSpace).pTailVMR = nodes.getLastD 0
  nonNull : 0 ∉ nodes
  ordered : Ordered x nodes
  count : (x.addressSpaces pSpace).nrVMRs = nodes.length
  count32 : nodes.length < 2 ^ 32

theorem Ordered.nodup (h : Ordered x nodes) : nodes.Nodup := by
  refine h.sorted.imp_of_mem fun {p q} hp _ hle heq => ?_
  have := h.ranges p hp
  rw [heq] at hle this
  omega

theorem Ordered.tail {p : Nat} (h : Ordered x (p :: nodes)) : Ordered x nodes :=
  ⟨fun q hq => h.ranges q (List.mem_cons_of_mem p hq), (List.pairwise_cons.mp h.sorted).2⟩

theorem Ordered.head_le {p q : Nat} (h : Ordered x (p :: nodes)) (hq : q ∈ p :: nodes) :
    (x.regions p).vaddrStart ≤ (x.regions q).vaddrStart := by
  rcases List.mem_cons.mp hq with rfl | hq
  · exact le_rfl
  · have := h.ranges p List.mem_cons_self
    have := (List.pairwise_cons.mp h.sorted).1 q hq
    omega

theorem Ordered.not_overlaps {s e p : Nat} (h : Ordered x (p :: nodes))
    (he : e ≤ (x.regions p).vaddrStart) : ¬∃ q ∈ p :: nodes, Overlaps x s e q := by
  intro ⟨q, hq, hover⟩
  have hstart := h.head_le hq
  have hbefore := hover.2
  omega

theorem vmLocateRegionFrom_spec {v b fuel p : Nat}
    (hl : Linked (pPrevOf x) (pNextOf x) b nodes 0) (hnil : 0 ∉ nodes) (ho : Ordered x nodes)
    (hf : nodes.length < fuel) (hp : p ∈ nodes)
    (hin : (x.regions p).vaddrStart ≤ v ∧ v < (x.regions p).vaddrEnd) :
    vmLocateRegionFrom x v fuel (nodes.headD 0) = some p := by
  induction nodes generalizing b fuel with
  | nil => exact absurd hp List.not_mem_nil
  | cons q nodes ih =>
    cases fuel with
    | zero => exact absurd hf (Nat.not_lt_zero _)
    | succ fuel =>
      obtain ⟨_, hnext, hrest⟩ := hl
      have hq0 : q ≠ 0 := fun h => hnil (h ▸ List.mem_cons_self)
      rw [List.headD_cons, vmLocateRegionFrom, if_neg hq0]
      cases hp with
      | head => rw [if_pos hin]
      | tail _ hmem =>
        have hle := (List.pairwise_cons.mp ho.sorted).1 p hmem
        change (x.regions q).pNext = _ at hnext
        rw [if_neg (by omega), hnext]
        exact ih hrest (fun h => hnil (List.mem_cons_of_mem q h)) ho.tail
          (Nat.lt_of_succ_lt_succ hf) hmem

theorem VmrList.length_lt {pSpace : Nat} (h : VmrList x pSpace nodes) : nodes.length < 2 ^ 64 :=
  h.count32.trans (by decide)

theorem VmrList.locate {pSpace v p : Nat} (h : VmrList x pSpace nodes) (hspace : pSpace ≠ 0)
    (hp : p ∈ nodes) (hin : (x.regions p).vaddrStart ≤ v ∧ v < (x.regions p).vaddrEnd) :
    vmLocateRegion x pSpace v = some p := by
  rw [vmLocateRegion, if_neg hspace, h.root]
  exact vmLocateRegionFrom_spec h.linked h.nonNull h.ordered h.length_lt hp hin

/-- What the search along `nodes` says, with `b` before them: nothing where the range overlaps
the last region, else a place in the list, between the regions that end before the range and
those that start after it unless it overlaps one. -/
def InsertPoint (x : VmmState) (s e b : Nat) (nodes : List Nat) : Option (Nat × Nat) → Prop
  | none => nodes ≠ [] → Overlaps x s e (nodes.getLastD 0)
  | some (before, after) => ∃ l r, nodes = l ++ r ∧ before = r.headD 0 ∧ after = l.getLastD b ∧
      nodes ≠ [] ∧ ¬Overlaps x s e (nodes.getLastD 0) ∧
      ((∀ q ∈ nodes, ¬Overlaps x s e q) →
        (∀ q ∈ l, (x.regions q).vaddrEnd ≤ s) ∧ ∀ q ∈ r, e ≤ (x.regions q).vaddrStart)

theorem getLastD_cons_of_ne_nil {p a : Nat} (h : nodes ≠ []) :
    (p :: nodes).getLastD a = nodes.getLastD a := by
  cases nodes with
  | nil => exact absurd rfl h
  | cons q l => rw [List.getLastD_cons, List.getLastD_cons, List.getLastD_cons]

theorem InsertPoint.cons {s e b p : Nat} {res : Option (Nat × Nat)}
    (h : InsertPoint x s e p nodes res)
    (hp : (x.regions p).vaddrEnd ≤ s ∧ nodes ≠ [] ∨ Overlaps x s e p) :
    InsertPoint x s e b (p :: nodes) res := by
  cases res with
  | none =>
    intro _
    by_cases hempty : nodes = []
    · rw [hempty]
      exact hp.resolve_left fun hp => hp.2 hempty
    · rw [getLastD_cons_of_ne_nil hempty]
      exact h hempty
  | some place =>
    obtain ⟨before, after⟩ := place
    obtain ⟨l, r, heq, hbefore, hafter, hne, hlast, hplace⟩ := h
    refine ⟨p :: l, r, by rw [heq, List.cons_append], hbefore, ?_, List.cons_ne_nil p nodes, ?_,
      fun hnone => ?_⟩
    · rw [List.getLastD_cons]
      exact hafter
    · rw [getLastD_cons_of_ne_nil hne]
      exact hlast
    · obtain ⟨hl, hr⟩ := hplace fun q hq => hnone q (List.mem_cons_of_mem p hq)
      refine ⟨fun q hq => ?_, hr⟩
      rcases List.mem_cons.mp hq with rfl | hq
      · exact (hp.resolve_right (hnone q List.mem_cons_self)).1
      · exact hl q hq

theorem InsertPoint.first {s e b p : Nat} (ho : Ordered x (p :: nodes))
    (hbefore : e ≤ (x.regions p).vaddrStart) : InsertPoint x s e b (p :: nodes) (some (p, b)) := by
  have hlast : (p :: nodes).getLastD 0 ∈ p :: nodes := getLastD_mem (List.cons_ne_nil p nodes)
  refine ⟨[], p :: nodes, rfl, rfl, rfl, List.cons_ne_nil p nodes, fun hover => ?_,
    fun _ => ⟨by simp, fun q hq => ?_⟩⟩
  · exact ho.not_overlaps hbefore ⟨_, hlast, hover⟩
  · exact hbefore.trans (ho.head_le hq)

theorem InsertPoint.second {s e b p : Nat} (hafter : (x.regions p).vaddrEnd ≤ s)
    (hstarts : ∀ q ∈ nodes, e ≤ (x.regions q).vaddrStart) :
    InsertPoint x s e b (p :: nodes) (some (nodes.headD 0, p)) := by
  have hlast : (p :: nodes).getLastD 0 ∈ p :: nodes := getLastD_mem (List.cons_ne_nil p nodes)
  have hfirst : ¬Overlaps x s e p := fun hover => by
    have hend := hover.1
    omega
  have hrest : ∀ q ∈ nodes, ¬Overlaps x s e q := fun q hq hover => by
    have hstart := hstarts q hq
    have hbefore := hover.2
    omega
  refine ⟨[p], nodes, rfl, rfl, rfl, List.cons_ne_nil p nodes, ?_,
    fun _ => ⟨by simpa using hafter, hstarts⟩⟩
  cases List.mem_cons.mp hlast with
  | inl heq => rwa [heq]
  | inr hmem => exact hrest _ hmem

theorem vmFindInsertPointFrom_spec {b s e fuel : Nat}
    (hl : Linked (pPrevOf x) (pNextOf x) b nodes 0) (hnil : 0 ∉ nodes) (ho : Ordered x nodes)
    (hf : nodes.length < fuel) :
    ∃ res, vmFindInsertPointFrom x s e fuel (nodes.headD 0) = some res ∧
      InsertPoint x s e b nodes res := by
  induction fuel generalizing b nodes with
  | zero => exact absurd hf (Nat.not_lt_zero _)
  | succ fuel ih =>
    cases nodes with
    | nil =>
      refine ⟨none, ?_, fun h => absurd rfl h⟩
      rw [List.headD_nil, vmFindInsertPointFrom, if_pos rfl]
    | cons p nodes =>
      obtain ⟨hprev, hnext, hrest⟩ := hl
      have hp0 : p ≠ 0 := fun h => hnil (h ▸ List.mem_cons_self)
      have hnil' : 0 ∉ nodes := fun h => hnil (List.mem_cons_of_mem p h)
      obtain ⟨res, hfind, hres⟩ := ih hrest hnil' ho.tail (Nat.lt_of_succ_lt_succ hf)
      rw [List.headD_cons, vmFindInsertPointFrom, if_neg hp0]
      dsimp only
      change (x.regions p).pPrev = _ at hprev
      change (x.regions p).pNext = _ at hnext
      rw [hprev, hnext]
      by_cases hbefore : e ≤ (x.regions p).vaddrStart
      · rw [if_pos hbefore]
        exact ⟨_, rfl, .first ho hbefore⟩
      · rw [if_neg hbefore]
        by_cases hafter : s ≥ (x.regions p).vaddrEnd
        · rw [if_pos hafter]
          by_cases hnext' : nodes.headD 0 ≠ 0 ∧ e ≥ (x.regions (nodes.headD 0)).vaddrStart
          · rw [if_pos hnext']
            have hne : nodes ≠ [] := by
              intro hempty
              rw [hempty] at hnext'
              exact hnext'.1 rfl
            exact ⟨res, hfind, hres.cons (Or.inl ⟨hafter, hne⟩)⟩
          · rw [if_neg hnext']
            have hstarts : ∀ q ∈ nodes, e ≤ (x.regions q).vaddrStart := by
              intro q hq
              cases nodes with
              | nil => exact absurd hq List.not_mem_nil
              | cons q' nodes =>
                have hq0 : q' ≠ 0 := fun h => hnil' (h ▸ List.mem_cons_self)
                have hlt : ¬e ≥ (x.regions q').vaddrStart := fun h => hnext' ⟨hq0, h⟩
                have := ho.tail.head_le hq
                omega
            exact ⟨_, rfl, .second hafter hstarts⟩
        · rw [if_neg hafter]
          exact ⟨res, hfind, hres.cons (Or.inr ⟨by omega, by omega⟩)⟩

theorem VmrList.search {pSpace : Nat} (h : VmrList x pSpace nodes) (s e : Nat) :
    ∃ res, vmFindInsertPointFrom x s e (2 ^ 64) (nodes.headD 0) = some res ∧
      InsertPoint x s e 0 nodes res :=
  vmFindInsertPointFrom_spec h.linked h.nonNull h.ordered h.length_lt

def zeroRegion : KrVirtualMemoryRegion := ⟨0, 0, 0, none, 0, 0, 0⟩

theorem regions_zeroBuffer (x : VmmState) (p n a : Nat) :
    (krtlContiguousZeroBuffer x p n).regions a = x.regions a ∨
      (krtlContiguousZeroBuffer x p n).regions a = zeroRegion := by
  dsimp only [krtlContiguousZeroBuffer]
  split
  · exact Or.inr rfl
  · exact Or.inl rfl

/-- What the allocator does to the rest: it zeroes regions, the one it returns among them. -/
structure NodeFrame (x : VmmState) (p : Nat) (y : VmmState) : Prop where
  spaces : y.addressSpaces = x.addressSpaces
  kernel : y.kernelAddressSpace = x.kernelAddressSpace
  regions : ∀ a, y.regions a = x.regions a ∨ y.regions a = zeroRegion
  refused : p = 0 → y.regions = x.regions
  fresh : p ≠ 0 → y.regions p = zeroRegion

theorem rnaAcquireNode_frame {p : Nat} (h : rnaAcquireNode x = some (p, y)) :
    NodeFrame x p y := by
  unfold rnaAcquireNode at h
  split at h
  · exact absurd h (by simp)
  · rename_i q z hchoose
    have hz : z.addressSpaces = x.addressSpaces ∧ z.kernelAddressSpace = x.kernelAddressSpace ∧
        (∀ a, z.regions a = x.regions a ∨ z.regions a = zeroRegion) ∧
        (q = 0 → z.regions = x.regions) := by
      rcases rnaChoose_cases hchoose with ⟨_, heq⟩ | ⟨q', heq⟩
      · cases heq
        exact ⟨rfl, rfl, fun _ => Or.inl rfl, fun _ => rfl⟩
      · have hq : q = (rnaNewPage x q').1 := congrArg Prod.fst heq
        have hz : z = (rnaNewPage x q').2 := congrArg Prod.snd heq
        rw [hq, hz]
        unfold rnaNewPage
        dsimp only
        split
        · exact ⟨rfl, rfl, fun _ => Or.inl rfl, fun _ => rfl⟩
        · exact ⟨rfl, rfl, fun a => regions_zeroBuffer _ _ _ a,
            fun h0 => absurd h0 (rnaGetSlotVptr_ne_zero _ 0)⟩
    obtain ⟨hspaces, hkernel, hregions, hrefused⟩ := hz
    rw [Option.some.injEq] at h
    split at h
    · rename_i hq
      cases h
      exact ⟨hspaces, hkernel, hregions, fun _ => hrefused hq, fun h0 => absurd rfl h0⟩
    · have hp : p = (rnaTakeSlot z q).1 := (congrArg Prod.fst h).symm
      have hy : y = (rnaTakeSlot z q).2 := (congrArg Prod.snd h).symm
      rw [hp, hy]
      refine ⟨hspaces, hkernel, fun a => ?_, fun h0 => absurd h0 (rnaGetSlotVptr_ne_zero _ _),
        fun _ => ?_⟩
      · rcases regions_zeroBuffer (setMeta z q _) (rnaTakeSlot z q).1 SIZEOF_REGION a with hsame | h0
        · exact hsame ▸ hregions a
        · exact Or.inr h0
      · exact if_pos ⟨le_rfl, Nat.lt_add_of_pos_right (by decide)⟩

section link
variable {space s e flags before after p : Nat}

theorem regions_linkBefore (q : Nat) : (linkBefore x before p).regions q =
    if q = before ∧ q ≠ 0 then { x.regions q with pPrev := p } else x.regions q := by
  unfold linkBefore
  by_cases h0 : before = 0
  · rw [if_pos h0, if_neg (fun h => h.2 (h.1.trans h0))]
  · rw [if_neg h0]
    by_cases hq : q = before
    · subst hq
      rw [if_pos ⟨rfl, h0⟩]
      exact Function.update_self _ _ _
    · rw [if_neg (fun h => hq h.1)]
      exact Function.update_of_ne hq _ _

theorem regions_linkAfter (q : Nat) : (linkAfter x after p).regions q =
    if q = after ∧ q ≠ 0 then { x.regions q with pNext := p } else x.regions q := by
  unfold linkAfter
  by_cases h0 : after = 0
  · rw [if_pos h0, if_neg (fun h => h.2 (h.1.trans h0))]
  · rw [if_neg h0]
    by_cases hq : q = after
    · subst hq
      rw [if_pos ⟨rfl, h0⟩]
      exact Function.update_self _ _ _
    · rw [if_neg (fun h => hq h.1)]
      exact Function.update_of_ne hq _ _

theorem spaces_linkAfter : (linkAfter (linkBefore x before p) after p).addressSpaces =
    x.addressSpaces := by
  unfold linkAfter linkBefore
  split <;> split <;> rfl

theorem linkRegion_self : (linkRegion x space s e flags before after p).regions p =
    { x.regions p with
      pAddressSpace := space, vaddrStart := s, vaddrEnd := e, flags,
      pPrev := after, pNext := before } := by
  unfold linkRegion
  refine (Function.update_self _ _ _).trans ?_
  rw [regions_linkAfter, regions_linkBefore]
  dsimp only [setRegion]
  rw [Function.update_self]
  split <;> split <;> rfl

theorem linkRegion_other {q : Nat} (hq : q ≠ p) (hq0 : q ≠ 0) :
    (linkRegion x space s e flags before after p).regions q =
    { x.regions q with
      pPrev := if q = before then p else (x.regions q).pPrev
      pNext := if q = after then p else (x.regions q).pNext } := by
  unfold linkRegion
  refine (Function.update_of_ne hq _ _).trans ?_
  rw [regions_linkAfter, regions_linkBefore]
  dsimp only [setRegion]
  rw [Function.update_of_ne hq]
  by_cases ha : q = after
  · rw [if_pos ⟨ha, hq0⟩, if_pos ha]
    by_cases hb : q = before
    · rw [if_pos ⟨hb, hq0⟩, if_pos hb]
    · rw [if_neg (fun h => hb h.1), if_neg hb]
  · rw [if_neg (fun h => ha h.1), if_neg ha]
    by_cases hb : q = before
    · rw [if_pos ⟨hb, hq0⟩, if_pos hb]
    · rw [if_neg (fun h => hb h.1), if_neg hb]

theorem linkRegion_space : (linkRegion x space s e flags before after p).addressSpaces space =
    { x.addressSpaces space with
      pRootVMR := if before = (x.addressSpaces space).pRootVMR then p
        else (x.addressSpaces space).pRootVMR
      pTailVMR := if after = (x.addressSpaces space).pTailVMR then p
        else (x.addressSpaces space).pTailVMR
      nrVMRs := wrap32 ((x.addressSpaces space).nrVMRs + 1) } := by
  unfold linkRegion setAddressSpace
  refine (Function.update_self _ _ _).trans ?_
  simp only [setRegion, spaces_linkAfter]

end link

variable {space s e flags p : Nat} {l r : List Nat}

theorem VmrList.congr (h : VmrList x space nodes) (hregions : ∀ q ∈ nodes, y.regions q = x.regions q)
    (hspace : y.addressSpaces space = x.addressSpaces space) : VmrList y space nodes := by
  refine ⟨h.linked.congr (fun q hq => ?_) (fun q hq => ?_), hspace ▸ h.root, hspace ▸ h.tail,
    h.nonNull, ⟨fun q hq => ?_, ?_⟩, hspace ▸ h.count, h.count32⟩
  · rw [pPrevOf, pPrevOf, hregions q hq]
  · rw [pNextOf, pNextOf, hregions q hq]
  · rw [hregions q hq]
    exact h.ordered.ranges q hq
  · refine h.ordered.sorted.imp_of_mem fun hp hq hle => ?_
    rw [hregions _ hp, hregions _ hq]
    exact hle

theorem Ordered.insert (h : Ordered x (l ++ r))
    (hp : (y.regions p).vaddrStart < (y.regions p).vaddrEnd)
    (hsame : ∀ q ∈ l ++ r, (y.regions q).vaddrStart = (x.regions q).vaddrStart ∧
      (y.regions q).vaddrEnd = (x.regions q).vaddrEnd)
    (hl : ∀ q ∈ l, (x.regions q).vaddrEnd ≤ (y.regions p).vaddrStart)
    (hr : ∀ q ∈ r, (y.regions p).vaddrEnd ≤ (x.regions q).vaddrStart) :
    Ordered y (l ++ p :: r) := by
  obtain ⟨hsl, hsr, hcross⟩ := List.pairwise_append.mp h.sorted
  have hinl : ∀ q ∈ l, q ∈ l ++ r := fun q hq => List.mem_append_left r hq
  have hinr : ∀ q ∈ r, q ∈ l ++ r := fun q hq => List.mem_append_right l hq
  refine ⟨fun q hq => ?_, List.pairwise_append.mpr ⟨?_, List.pairwise_cons.mpr ⟨?_, ?_⟩, ?_⟩⟩
  · rcases List.mem_append.mp hq with hq | hq
    · rw [(hsame q (hinl q hq)).1, (hsame q (hinl q hq)).2]
      exact h.ranges q (hinl q hq)
    · rcases List.mem_cons.mp hq with rfl | hq
      · exact hp
      · rw [(hsame q (hinr q hq)).1, (hsame q (hinr q hq)).2]
        exact h.ranges q (hinr q hq)
  · refine hsl.imp_of_mem fun ha hb hle => ?_
    rw [(hsame _ (hinl _ ha)).2, (hsame _ (hinl _ hb)).1]
    exact hle
  · intro q hq
    rw [(hsame q (hinr q hq)).1]
    exact hr q hq
  · refine hsr.imp_of_mem fun ha hb hle => ?_
    rw [(hsame _ (hinr _ ha)).2, (hsame _ (hinr _ hb)).1]
    exact hle
  · intro a ha b hb
    rw [(hsame a (hinl a ha)).2]
    rcases List.mem_cons.mp hb with rfl | hb
    · exact hl a ha
    · rw [(hsame b (hinr b hb)).1]
      exact hcross a ha b hb

theorem VmrList.insert (h : VmrList x space (l ++ r)) (hse : s < e) (hp0 : p ≠ 0)
    (hp : p ∉ l ++ r) (hlen : (l ++ r).length + 1 < 2 ^ 32)
    (hl : ∀ q ∈ l, (x.regions q).vaddrEnd ≤ s) (hr : ∀ q ∈ r, e ≤ (x.regions q).vaddrStart) :
    VmrList (linkRegion x space s e flags (r.headD 0) (l.getLastD 0) p) space (l ++ p :: r) := by
  have hnd := h.ordered.nodup
  have hother : ∀ q ∈ l ++ r, q ≠ p ∧ q ≠ 0 := fun q hq =>
    ⟨fun heq => hp (heq ▸ hq), fun heq => h.nonNull (heq ▸ hq)⟩
  refine ⟨h.linked.insert hnd h.nonNull ?_ ?_ (fun q hq => ?_) (fun q hq => ?_), ?_, ?_, ?_,
    h.ordered.insert ?_ (fun q hq => ?_) ?_ ?_, ?_, ?_⟩
  · rw [pPrevOf, linkRegion_self]
  · rw [pNextOf, linkRegion_self]
  · rw [pPrevOf, linkRegion_other (hother q hq).1 (hother q hq).2]
    rfl
  · rw [pNextOf, linkRegion_other (hother q hq).1 (hother q hq).2]
    rfl
  · rw [linkRegion_space, h.root]
    dsimp only
    rw [headD_append, headD_append, List.headD_cons]
    cases l with
    | nil => exact if_pos rfl
    | cons q l => exact if_neg fun heq => ne_headD_right hnd h.nonNull List.mem_cons_self heq.symm
  · rw [linkRegion_space, h.tail]
    dsimp only
    rw [getLastD_append, getLastD_append, List.getLastD_cons]
    cases r with
    | nil => exact if_pos rfl
    | cons q r =>
      have hmem : (q :: r).getLastD 0 ∈ q :: r := getLastD_mem (List.cons_ne_nil q r)
      rw [List.getLastD_cons] at hmem ⊢
      rw [List.getLastD_cons]
      exact if_neg fun heq => ne_getLastD_left hnd h.nonNull hmem heq.symm
  · simp only [List.mem_append, List.mem_cons, not_or]
    exact ⟨fun h0 => h.nonNull (List.mem_append_left r h0), hp0.symm,
      fun h0 => h.nonNull (List.mem_append_right l h0)⟩
  · rw [linkRegion_self]
    exact hse
  · rw [linkRegion_other (hother q hq).1 (hother q hq).2]
    exact ⟨rfl, rfl⟩
  · rw [linkRegion_self]
    exact hl
  · rw [linkRegion_self]
    exact hr
  · rw [linkRegion_space, h.count]
    dsimp only
    rw [wrap32_of_lt hlen]
    simp only [List.length_append, List.length_cons]
    omega
  · simp only [List.length_append, List.length_cons] at hlen ⊢
    omega

def RefusedEarly (x : VmmState) (space s e flags : Nat) : Prop :=
  s ≥ e ∨ divisionRefused x space s flags = true ∨
    (krtlIsPowerOfTwoAligned s (regionPageSize flags) &&
      krtlIsPowerOfTwoAligned e (regionPageSize flags)) = false

structure Inserted (x y : VmmState) (space s e flags p : Nat) (nodes : List Nat) : Prop where
  list : ∃ l r, nodes = l ++ r ∧ VmrList y space (l ++ p :: r)
  apart : ∀ q ∈ nodes, ¬Overlaps x s e q
  requested : (y.regions p).pAddressSpace = space ∧ (y.regions p).tag = none ∧
    (y.regions p).vaddrStart = s ∧ (y.regions p).vaddrEnd = e ∧ (y.regions p).flags = flags
  kept : ∀ q ∈ nodes, { y.regions q with
    pPrev := (x.regions q).pPrev, pNext := (x.regions q).pNext } = x.regions q

/-- What a call owes the list: it inserts the region, or refuses and leaves the list alone. -/
def AcquireSound (x : VmmState) (space : Nat) (nodes : List Nat) (s e flags : Nat) : Prop :=
  ∃ p y, vmAcquireRegion x space s e flags = some (p, y) ∧
    ((p = 0 ∧ VmrList y space nodes ∧ ∀ q ∈ nodes, y.regions q = x.regions q) ∨
      (p ≠ 0 ∧ Inserted x y space s e flags p nodes))

/-- The calls that keep the list well formed: those refused early, those whose range overlaps
the last region, those the node allocator refuses, and those whose range overlaps no region
while the allocator's node is a new one. -/
def Admissible (x : VmmState) (space : Nat) (nodes : List Nat) (s e flags : Nat) : Prop :=
  RefusedEarly x space s e flags ∨ Overlaps x s e (nodes.getLastD 0) ∨
    ∃ p y, rnaAcquireNode x = some (p, y) ∧ (p = 0 ∨
      (∀ q ∈ nodes, ¬Overlaps x s e q) ∧ p ∉ nodes ∧
      (∀ q ∈ nodes, y.regions q = x.regions q) ∧ nodes.length + 1 < 2 ^ 32)

theorem vmAcquireRegion_refused (h : RefusedEarly x space s e flags) :
    vmAcquireRegion x space s e flags = some (0, x) := by
  unfold vmAcquireRegion
  split
  · rfl
  · split
    · rfl
    · split
      · rfl
      · rename_i hse hdiv
        rcases h with hle | hdiv' | halign
        · exact absurd (Or.inl hle) hse
        · exact absurd hdiv' hdiv
        · rw [halign]
          rfl

theorem vmAcquireRegion_searched (h : ¬RefusedEarly x space s e flags) (hspace : space ≠ 0) :
    vmAcquireRegion x space s e flags =
      match vmFindInsertPointFrom x s e (2 ^ 64) (x.addressSpaces space).pRootVMR with
      | none => none
      | some none => some (0, x)
      | some (some (before, after)) =>
        match rnaAcquireNode x with
        | none => none
        | some (p, y) =>
          if p = 0 then some (0, y)
          else some (p, linkRegion y space s e flags before after p) := by
  simp only [RefusedEarly, not_or, Bool.not_eq_false] at h
  obtain ⟨hse, hdiv, halign⟩ := h
  have hne : ¬(s ≥ e ∨ s = e) := by omega
  rw [vmAcquireRegion, if_neg hspace, if_neg hne, if_neg hdiv, halign, vmFindInsertPoint,
    if_neg hspace, if_neg hse]
  rfl

theorem vmFindInsertPoint_searched (h : ¬RefusedEarly x space s e flags) (hspace : space ≠ 0) :
    vmFindInsertPoint x space s e =
      vmFindInsertPointFrom x s e (2 ^ 64) (x.addressSpaces space).pRootVMR := by
  rw [vmFindInsertPoint, if_neg hspace, if_neg fun hle => h (Or.inl hle)]

def HasPlace (x : VmmState) (space s e flags : Nat) : Prop :=
  space ≠ 0 ∧ ¬RefusedEarly x space s e flags ∧ ∃ place, vmFindInsertPoint x space s e = some (some place)

theorem HasPlace.acquire (h : HasPlace x space s e flags) : ∃ before after,
    vmAcquireRegion x space s e flags =
      match rnaAcquireNode x with
      | none => none
      | some (p, y) =>
        if p = 0 then some (0, y) else some (p, linkRegion y space s e flags before after p) := by
  obtain ⟨hspace, hearly, ⟨before, after⟩, hplace⟩ := h
  rw [vmFindInsertPoint_searched hearly hspace] at hplace
  refine ⟨before, after, ?_⟩
  rw [vmAcquireRegion_searched hearly hspace, hplace]

theorem vmAcquireRegion_no_place (h : ¬HasPlace x space s e flags) :
    (space = 0 ∨ RefusedEarly x space s e flags ∨ vmFindInsertPoint x space s e = some none) ∧
        vmAcquireRegion x space s e flags = some (0, x) ∨
      vmFindInsertPoint x space s e = none ∧ vmAcquireRegion x space s e flags = none := by
  by_cases hspace : space = 0
  · left
    rw [vmAcquireRegion, if_pos hspace]
    exact ⟨Or.inl hspace, rfl⟩
  · by_cases hearly : RefusedEarly x space s e flags
    · exact Or.inl ⟨Or.inr (Or.inl hearly), vmAcquireRegion_refused hearly⟩
    · have hsearched := vmAcquireRegion_searched hearly hspace
      rw [← vmFindInsertPoint_searched hearly hspace] at hsearched
      cases hfind : vmFindInsertPoint x space s e with
      | none =>
        rw [hfind] at hsearched
        exact Or.inr ⟨rfl, hsearched⟩
      | some res =>
        cases res with
        | none =>
          rw [hfind] at hsearched
          exact Or.inl ⟨Or.inr (Or.inr rfl), hsearched⟩
        | some place => exact absurd ⟨hspace, hearly, place, hfind⟩ h

/-- What a call does: it links the allocator's node into its place, or is refused before. -/
theorem vmAcquireRegion_cases (h : vmAcquireRegion x space s e flags = some (p, y)) :
    (HasPlace x space s e flags ∧ ∃ before after z, rnaAcquireNode x = some (p, z) ∧
      y = if p = 0 then z else linkRegion z space s e flags before after p) ∨
    (space = 0 ∨ RefusedEarly x space s e flags ∨ vmFindInsertPoint x space s e = some none) ∧
      p = 0 ∧ y = x := by
  by_cases hplace : HasPlace x space s e flags
  · obtain ⟨before, after, heq⟩ := hplace.acquire
    rw [heq] at h
    refine Or.inl ⟨hplace, before, after, ?_⟩
    cases hacq : rnaAcquireNode x with
    | none =>
      rw [hacq] at h
      exact absurd h (by simp)
    | some node =>
      obtain ⟨q, z⟩ := node
      rw [hacq] at h
      dsimp only at h
      by_cases hq : q = 0
      · rw [if_pos hq, Option.some.injEq, Prod.mk.injEq] at h
        obtain ⟨rfl, rfl⟩ := h
        exact ⟨z, by rw [hq], (if_pos rfl).symm⟩
      · rw [if_neg hq, Option.some.injEq, Prod.mk.injEq] at h
        obtain ⟨rfl, rfl⟩ := h
        exact ⟨z, rfl, (if_neg hq).symm⟩
  · rcases vmAcquireRegion_no_place hplace with ⟨hwhy, hrefused⟩ | ⟨_, hnone⟩
    · rw [h, Option.some.injEq, Prod.mk.injEq] at hrefused
      exact Or.inr ⟨hwhy, hrefused⟩
    · rw [h] at hnone
      exact absurd hnone (by simp)

theorem vmAcquireRegion_linked (h : vmAcquireRegion x space s e flags = some (p, y)) (hp : p ≠ 0) :
    HasPlace x space s e flags ∧ ∃ before after z, rnaAcquireNode x = some (p, z) ∧
      y = linkRegion z space s e flags before after p := by
  rcases vmAcquireRegion_cases h with ⟨hplace, before, after, z, hacq, hy⟩ | ⟨_, hp0, _⟩
  · rw [if_neg hp] at hy
    exact ⟨hplace, before, after, z, hacq, hy⟩
  · exact absurd hp0 hp

def RegionRefused (x : VmmState) (space s e flags : Nat) : Prop :=
  space = 0 ∨ RefusedEarly x space s e flags ∨ vmFindInsertPoint x space s e = some none ∨
    HasPlace x space s e flags ∧ ∃ y, rnaAcquireNode x = some (0, y)

theorem vmAcquireRegion_zero (h : vmAcquireRegion x space s e flags = some (0, y)) :
    RegionRefused x space s e flags ∧ y.regions = x.regions ∧ y.addressSpaces = x.addressSpaces := by
  rcases vmAcquireRegion_cases h with ⟨hplace, _, _, z, hacq, hy⟩ | ⟨hwhy, _, hy⟩
  · rw [if_pos rfl] at hy
    have hframe := rnaAcquireNode_frame hacq
    rw [hy]
    exact ⟨Or.inr (Or.inr (Or.inr ⟨hplace, z, hacq⟩)), hframe.refused rfl, hframe.spaces⟩
  · rw [hy]
    exact ⟨hwhy.imp_right fun hwhy => hwhy.imp_right Or.inl, rfl, rfl⟩

theorem RegionRefused.acquire (h : RegionRefused x space s e flags) :
    ∃ y, vmAcquireRegion x space s e flags = some (0, y) := by
  by_cases hplace : HasPlace x space s e flags
  · obtain ⟨before, after, heq⟩ := hplace.acquire
    obtain ⟨hspace, hearly, place, hfind⟩ := hplace
    rcases h with h0 | hearly' | hnone | ⟨_, y, hacq⟩
    · exact absurd h0 hspace
    · exact absurd hearly' hearly
    · rw [hfind] at hnone
      exact absurd hnone (by simp)
    · rw [heq, hacq]
      exact ⟨y, rfl⟩
  · rcases vmAcquireRegion_no_place hplace with ⟨_, hrefused⟩ | ⟨hsearch, _⟩
    · exact ⟨x, hrefused⟩
    · rcases h with h0 | hearly | hnone | ⟨hplace', _⟩
      · rw [vmAcquireRegion, if_pos h0]
        exact ⟨x, rfl⟩
      · exact ⟨x, vmAcquireRegion_refused hearly⟩
      · rw [hsearch] at hnone
        exact absurd hnone (by simp)
      · exact absurd hplace' hplace

theorem not_mem_of_nodup_insert (h : (l ++ p :: r).Nodup) : p ∉ l ++ r := by
  rw [List.nodup_middle] at h
  exact (List.nodup_cons.mp h).1

theorem inserted_linkRegion (h : VmrList x space (l ++ r)) (hframe : NodeFrame x p y)
    (hse : s < e) (hp0 : p ≠ 0) (hapart : ∀ q ∈ l ++ r, ¬Overlaps x s e q) (hp : p ∉ l ++ r)
    (hsame : ∀ q ∈ l ++ r, y.regions q = x.regions q) (hlen : (l ++ r).length + 1 < 2 ^ 32)
    (hl : ∀ q ∈ l, (x.regions q).vaddrEnd ≤ s) (hr : ∀ q ∈ r, e ≤ (x.regions q).vaddrStart) :
    Inserted x (linkRegion y space s e flags (r.headD 0) (l.getLastD 0) p) space s e flags p
      (l ++ r) := by
  have hy : VmrList y space (l ++ r) := h.congr hsame (congrFun hframe.spaces space)
  refine ⟨⟨l, r, rfl, hy.insert hse hp0 hp hlen (fun q hq => ?_) (fun q hq => ?_)⟩, hapart, ?_,
    fun q hq => ?_⟩
  · rw [hsame q (List.mem_append_left r hq)]
    exact hl q hq
  · rw [hsame q (List.mem_append_right l hq)]
    exact hr q hq
  · rw [linkRegion_self, hframe.fresh hp0]
    exact ⟨rfl, rfl, rfl, rfl, rfl⟩
  · have hqp : q ≠ p := fun heq => hp (heq ▸ hq)
    have hq0 : q ≠ 0 := fun heq => h.nonNull (heq ▸ hq)
    rw [linkRegion_other hqp hq0, hsame q hq]

theorem Inserted.node_new {before after : Nat} (h : VmrList x space nodes)
    (hframe : NodeFrame x p y)
    (hin : Inserted x (linkRegion y space s e flags before after p) space s e flags p nodes) :
    p ∉ nodes ∧ (∀ q ∈ nodes, y.regions q = x.regions q) ∧ nodes.length + 1 < 2 ^ 32 := by
  obtain ⟨l, r, heq, hlist⟩ := hin.list
  have hp : p ∉ nodes := heq ▸ not_mem_of_nodup_insert hlist.ordered.nodup
  refine ⟨hp, fun q hq => ?_, ?_⟩
  · have hqp : q ≠ p := fun heq => hp (heq ▸ hq)
    have hq0 : q ≠ 0 := fun heq => h.nonNull (heq ▸ hq)
    rcases hframe.regions q with hsame | hzero
    · exact hsame
    · have hkept := congrArg KrVirtualMemoryRegion.vaddrEnd (hin.kept q hq)
      rw [linkRegion_other hqp hq0, hzero] at hkept
      have hrange := h.ordered.ranges q hq
      rw [← hkept] at hrange
      exact absurd hrange (Nat.not_lt_zero _)
  · have := hlist.count32
    rw [heq]
    simp only [List.length_append, List.length_cons] at this ⊢
    omega

theorem acquireSound_of_node (h : VmrList x space (l ++ r)) (hse : s < e) (hp0 : p ≠ 0)
    (hacq : rnaAcquireNode x = some (p, y))
    (hplace : (∀ q ∈ l ++ r, ¬Overlaps x s e q) →
      (∀ q ∈ l, (x.regions q).vaddrEnd ≤ s) ∧ ∀ q ∈ r, e ≤ (x.regions q).vaddrStart)
    (hcall : vmAcquireRegion x space s e flags =
      some (p, linkRegion y space s e flags (r.headD 0) (l.getLastD 0) p)) :
    AcquireSound x space (l ++ r) s e flags ↔
      (∀ q ∈ l ++ r, ¬Overlaps x s e q) ∧ p ∉ l ++ r ∧
        (∀ q ∈ l ++ r, y.regions q = x.regions q) ∧ (l ++ r).length + 1 < 2 ^ 32 := by
  have hframe := rnaAcquireNode_frame hacq
  constructor
  · rintro ⟨p', z, hsome, hsound⟩
    rw [hcall, Option.some.injEq, Prod.mk.injEq] at hsome
    obtain ⟨rfl, rfl⟩ := hsome
    rcases hsound with ⟨hp, _⟩ | ⟨_, hin⟩
    · exact absurd hp hp0
    · exact ⟨hin.apart, hin.node_new h hframe⟩
  · rintro ⟨hapart, hp, hsame, hcount⟩
    obtain ⟨hl, hr⟩ := hplace hapart
    exact ⟨p, _, hcall, Or.inr ⟨hp0, inserted_linkRegion h hframe hse hp0 hapart hp hsame hcount
      hl hr⟩⟩

theorem acquireSound_iff (h : VmrList x space nodes) (hne : nodes ≠ []) (hspace : space ≠ 0) :
    AcquireSound x space nodes s e flags ↔ Admissible x space nodes s e flags := by
  by_cases hearly : RefusedEarly x space s e flags
  · refine ⟨fun _ => Or.inl hearly, fun _ => ⟨0, x, vmAcquireRegion_refused hearly, ?_⟩⟩
    exact Or.inl ⟨rfl, h, fun _ _ => rfl⟩
  have hsearched := vmAcquireRegion_searched hearly hspace
  obtain ⟨res, hfind, hres⟩ := h.search s e
  rw [h.root, hfind] at hsearched
  cases res with
  | none =>
    refine ⟨fun _ => Or.inr (Or.inl (hres hne)), fun _ => ⟨0, x, hsearched, ?_⟩⟩
    exact Or.inl ⟨rfl, h, fun _ _ => rfl⟩
  | some place =>
    obtain ⟨before, after⟩ := place
    obtain ⟨l, r, rfl, rfl, rfl, _, hlast, hplace⟩ := hres
    dsimp only at hsearched
    rw [Admissible, or_iff_right hearly, or_iff_right hlast]
    cases hacq : rnaAcquireNode x with
    | none =>
      rw [hacq] at hsearched
      refine iff_of_false ?_ ?_
      · rintro ⟨p, y, hsome, _⟩
        rw [hsearched] at hsome
        exact absurd hsome (by simp)
      · rintro ⟨p, y, hsome, _⟩
        exact absurd hsome (by simp)
    | some node =>
      obtain ⟨p, y⟩ := node
      rw [hacq] at hsearched
      dsimp only at hsearched
      by_cases hp0 : p = 0
      · rw [if_pos hp0] at hsearched
        have hframe := rnaAcquireNode_frame hacq
        refine iff_of_true ⟨0, y, hsearched, Or.inl ⟨rfl, ?_, fun q _ => ?_⟩⟩
          ⟨p, y, rfl, Or.inl hp0⟩
        · refine h.congr (fun q _ => ?_) (congrFun hframe.spaces space)
          rw [hframe.refused hp0]
        · rw [hframe.refused hp0]
      · rw [if_neg hp0] at hsearched
        have hse : s < e := Nat.lt_of_not_le fun hle => hearly (Or.inl hle)
        rw [acquireSound_of_node h hse hp0 hacq hplace hsearched]
        constructor
        · exact fun hnew => ⟨p, y, rfl, Or.inr hnew⟩
        · rintro ⟨p', y', hsome, hcase⟩
          rw [Option.some.injEq, Prod.mk.injEq] at hsome
          obtain ⟨rfl, rfl⟩ := hsome
          exact hcase.resolve_left hp0

inductive AcquireStep (space : Nat) : VmmState → VmmState → Prop where
  | acquire (x y : VmmState) (nodes : List Nat) (s e flags p : Nat)
      (hlist : VmrList x space nodes) (h : Admissible x space nodes s e flags)
      (hcall : vmAcquireRegion x space s e flags = some (p, y)) : AcquireStep space x y

def HasList (space : Nat) (x : VmmState) : Prop := ∃ nodes, nodes ≠ [] ∧ VmrList x space nodes

theorem HasList.step (hspace : space ≠ 0) (h : HasList space x) (hstep : AcquireStep space x y) :
    HasList space y := by
  obtain ⟨nodes', hne', h'⟩ := h
  cases hstep with
  | acquire nodes s e flags p hlist hadm hcall =>
    have hne : nodes ≠ [] := by
      have hcount := hlist.count.symm.trans h'.count
      intro hempty
      rw [hempty, List.length_nil] at hcount
      exact hne' (List.eq_nil_of_length_eq_zero hcount.symm)
    obtain ⟨p', z, hcall', hsound⟩ := (acquireSound_iff hlist hne hspace).mpr hadm
    rw [hcall, Option.some.injEq, Prod.mk.injEq] at hcall'
    obtain ⟨rfl, rfl⟩ := hcall'
    rcases hsound with ⟨_, hsame, _⟩ | ⟨_, hin⟩
    · exact ⟨nodes, hne, hsame⟩
    · obtain ⟨l, r, _, hnew⟩ := hin.list
      exact ⟨l ++ p :: r, by simp, hnew⟩

/-- In every run of admissible calls the list stays well formed, and a further call keeps it
so, inserting exactly the region it was asked for or nothing, just when it is admissible. -/
theorem acquireSound_of_run (hspace : space ≠ 0) (h₀ : HasList space x)
    (hrun : Run (AcquireStep space) x y) :
    ∃ nodes, nodes ≠ [] ∧ VmrList y space nodes ∧
      ∀ s e flags, AcquireSound y space nodes s e flags ↔ Admissible y space nodes s e flags := by
  obtain ⟨nodes, hne, hlist⟩ : HasList space y :=
    Run.invariant (I := HasList space) (fun _ _ h hstep => h.step hspace hstep) hrun h₀
  exact ⟨nodes, hne, hlist, fun s e flags => acquireSound_iff hlist hne hspace⟩

def twoRegions : VmmState :=
  { smallRna with
    regions := fun p =>
      if p = 64 then ⟨1, 0, 128, none, 0x1000, 0x3000, 0⟩
      else if p = 128 then ⟨1, 64, 0, none, 0x10000, 0x11000, 0⟩
      else zeroRegion
    addressSpaces := fun p => if p = 1 then ⟨0x1000, 64, 128, 2⟩ else ⟨0, 0, 0, 0⟩
    kernelAddressSpace := 2 }

theorem vmrList_twoRegions : VmrList twoRegions 1 [64, 128] :=
  ⟨⟨rfl, rfl, rfl, rfl, trivial⟩, rfl, rfl, by decide, ⟨by decide, by decide⟩, rfl, by decide⟩

theorem rnaAcquireNode_twoRegions :
    ∃ y, rnaAcquireNode twoRegions = some (virtAddrBase + 0x100040, y) ∧
      ∀ q ∈ [64, 128], y.regions q = twoRegions.regions q := by
  have h : (rnaAcquireNode twoRegions).map (fun z => (z.1, [64, 128].map z.2.regions)) =
      some (virtAddrBase + 0x100040, [64, 128].map twoRegions.regions) := by
    decide +kernel
  obtain ⟨⟨p, y⟩, hacq, heq⟩ := Option.map_eq_some_iff.mp h
  obtain ⟨rfl, hregions⟩ := Prod.mk.inj heq
  exact ⟨y, hacq, List.map_inj_left.mp hregions⟩

theorem acquireSound_of_run_twoRegions :
    ∃ y, Run (AcquireStep 1) twoRegions y ∧ ∃ nodes, nodes ≠ [] ∧ VmrList y 1 nodes ∧
      ∀ s e flags, AcquireSound y 1 nodes s e flags ↔ Admissible y 1 nodes s e flags := by
  obtain ⟨z, hacq, hsame⟩ := rnaAcquireNode_twoRegions
  have hadm : Admissible twoRegions 1 [64, 128] 0x4000 0x5000 0 :=
    Or.inr (Or.inr ⟨_, z, hacq, Or.inr ⟨by decide, by decide, hsame, by decide⟩⟩)
  obtain ⟨p, y, hcall, _⟩ :=
    (acquireSound_iff vmrList_twoRegions (by decide) (by decide)).mpr hadm
  have hrun : Run (AcquireStep 1) twoRegions y := Relation.ReflTransGen.single
    (AcquireStep.acquire _ _ _ _ _ _ _ vmrList_twoRegions hadm hcall)
  exact ⟨y, hrun, acquireSound_of_run (by decide) ⟨_, by decide, vmrList_twoRegions⟩ hrun⟩

/-- [0x2000, 0x4000) overlaps the first of the two regions and is acquired. -/
theorem overlap_acquired :
    VmrList twoRegions 1 [64, 128] ∧ Overlaps twoRegions 0x2000 0x4000 64 ∧
      (∃ y, vmAcquireRegion twoRegions 1 0x2000 0x4000 0 = some (virtAddrBase + 0x100040, y)) ∧
      ¬AcquireSound twoRegions 1 [64, 128] 0x2000 0x4000 0 := by
  have hover : Overlaps twoRegions 0x2000 0x4000 64 := by decide
  have h : (vmAcquireRegion twoRegions 1 0x2000 0x4000 0).map Prod.fst =
      some (virtAddrBase + 0x100040) := by
    decide +kernel
  obtain ⟨⟨p, y⟩, hcall, rfl⟩ := Option.map_eq_some_iff.mp h
  refine ⟨vmrList_twoRegions, hover, ⟨y, hcall⟩, ?_⟩
  rintro ⟨p', y', hcall', ⟨hp, _⟩ | ⟨_, hin⟩⟩
  · rw [hcall, Option.some.injEq, Prod.mk.injEq] at hcall'
    rw [← hcall'.1] at hp
    exact absurd hp (by decide)
  · exact hin.apart 64 (by decide) hover

end Ych.Virtmemmgmt
