import Ych.Memory.AcquireHint
import Ych.Memory.RegionNodeAllocator

/-! Runs of the region node allocator: the root page's 31 lower slots are handed out in order,
and what comes after that lies in page 0, whatever page was acquired for it. -/
namespace Ych.Virtmemmgmt
open Words Bitmap Physmemmgmt Runs

theorem usageOnly_pmAcquirePage (st : KrPhysmemmgmtState) (pageType hintID : Nat) :
    UsageOnly st (pmAcquirePage st pageType hintID).2 :=
  usageOnly_pmAcquirePages _ _ _ _ _

theorem offered_free {st : KrPhysmemmgmtState} {page p : Nat} (h : p ∈ offered st page) :
    pageFree st p = true := by
  rw [offered, List.mem_append] at h
  rcases h with h | h
  · exact (mem_freeRange.mp h).2
  · split at h
    · exact (mem_freeRange.mp h).2
    · exact absurd h List.not_mem_nil

theorem pmAcquirePage_unreserved {st : KrPhysmemmgmtState} (hs : WellSized st)
    (pageType hintID : Nat) : (pmAcquirePage st pageType hintID).1 = IVLDPGID ∨
      krIsPhysicalPageReserved st (pmAcquirePage st pageType hintID).1 = false := by
  by_cases hstart : krIsValidPageID st (startPage st hintID) = true
  · obtain ⟨hret, hget, _⟩ := pmAcquirePages_sparse (fun _ => IVLDPGID) pageType hs
      isSparse_sparse le_rfl hstart rfl
    unfold pmAcquirePage
    dsimp only
    by_cases hlen : 0 < ((offered st (startPage st hintID)).take 1).length
    · right
      have hf := offered_free (List.mem_of_mem_take (List.getElem_mem hlen))
      rw [hret, if_pos (by omega), hget 0 hlen]
      exact (pageFree_iff.mp hf).2
    · left
      rw [hret, if_neg (by omega)]
  · left
    exact pmAcquirePage_notFound pageType ((Bool.not_eq_true _).mp hstart)

variable {x y : VmmState} {r : Nat}

theorem krPhysToVirt_of_lt {a : Nat} (h : a < 2 ^ 32) : krPhysToVirt a = virtAddrBase + a := by
  have hbase : virtAddrBase = 0xFFFF800000000000 := by decide
  rw [krPhysToVirt, wrap64_of_lt]
  omega

theorem rnaGetSlotVptr_of_valid (h : krIsValidPageID x.pmm r = true) (s : Nat) :
    rnaGetSlotVptr x r s = virtAddrBase + wrap32 (r * KR_PAGE_SIZE) + s * RNA_SLOT_SIZE := by
  rw [rnaGetSlotVptr, krGetPhysicalPageAddress_of_valid h, krPhysToVirt_of_lt (wrap32_lt _)]

theorem rnaGetSlotVptr_zero (s : Nat) :
    rnaGetSlotVptr x 0 s = virtAddrBase + s * RNA_SLOT_SIZE := by
  have haddr : krGetPhysicalPageAddress x.pmm 0 = 0 := by
    unfold krGetPhysicalPageAddress
    split <;> rfl
  rw [rnaGetSlotVptr, haddr, krPhysToVirt_of_lt (by decide), Nat.add_zero]

theorem rnaGetSlotVptr_ne_zero (p s : Nat) : rnaGetSlotVptr x p s ≠ 0 := by
  have hbase : virtAddrBase = 0xFFFF800000000000 := by decide
  have haddr : krGetPhysicalPageAddress x.pmm p < 2 ^ 32 := by
    unfold krGetPhysicalPageAddress
    split
    · decide
    · exact wrap32_lt _
  rw [rnaGetSlotVptr, krPhysToVirt_of_lt haddr]
  omega

theorem rnaChoose_free {fuel p : Nat} (hf : 0 < fuel)
    (h : (x.metas p).bitmap ≠ BitVec.allOnes 64) : rnaChoose x fuel p = some (p, x) := by
  cases fuel with
  | zero => exact absurd hf (by decide)
  | succ fuel => rw [rnaChoose, if_pos h]

theorem rnaChoose_last {fuel p : Nat} (hf : 0 < fuel)
    (h : (x.metas p).bitmap = BitVec.allOnes 64) (hnext : (x.metas p).next = IVLDPGID) :
    rnaChoose x fuel p = some (rnaNewPage x p) := by
  cases fuel with
  | zero => exact absurd hf (by decide)
  | succ fuel => rw [rnaChoose, if_neg (not_not.mpr h), if_neg (not_not.mpr hnext)]

/-- The root's bitmap after `k` nodes: taking slot 31 fills the whole upper half. -/
def occupied (k : Nat) : BitVec 64 :=
  if k < 31 then BitVec.ofNat 64 (2 ^ (k + 1) - 1) else BitVec.allOnes 64

theorem occupied_step : ∀ k < 31, occupied k ≠ BitVec.allOnes 64 ∧
    ctzl (~~~occupied k) = k + 1 ∧ occupied k ||| intBit (k + 1) = occupied (k + 1) := by
  decide +kernel

def slotsOf (r k : Nat) : List Nat :=
  (List.range k).reverse.map fun i =>
    virtAddrBase + wrap32 (r * KR_PAGE_SIZE) + (i + 1) * RNA_SLOT_SIZE

theorem slotsOf_succ (r k : Nat) : slotsOf r (k + 1) =
    (virtAddrBase + wrap32 (r * KR_PAGE_SIZE) + (k + 1) * RNA_SLOT_SIZE) :: slotsOf r k := by
  rw [slotsOf, List.range_succ, List.reverse_append]
  rfl

theorem mem_slotsOf {r k p : Nat} : p ∈ slotsOf r k ↔
    ∃ i < k, virtAddrBase + wrap32 (r * KR_PAGE_SIZE) + (i + 1) * RNA_SLOT_SIZE = p := by
  simp [slotsOf]

theorem slotsOf_nodup (r k : Nat) : (slotsOf r k).Nodup := by
  refine (List.nodup_reverse.mpr List.nodup_range).map fun i j h => ?_
  unfold RNA_SLOT_SIZE at h
  omega

/-- The root page `r` has handed out `k` slots, and no other page exists. -/
structure RootFilling (r k : Nat) (x : VmmState) : Prop where
  root : x.rnaRootPageID = r
  pages : x.rnaPages = [r]
  valid : krIsValidPageID x.pmm r = true
  rootMeta : x.metas (rnaGetMetaSlotVptr x r) = ⟨occupied k, r, IVLDPGID, IVLDPGID, k + 1⟩

theorem rnaGetMetaSlotVptr_congr (h : y.pmm.nrPages = x.pmm.nrPages) (p : Nat) :
    rnaGetMetaSlotVptr y p = rnaGetMetaSlotVptr x p := by
  simp only [rnaGetMetaSlotVptr, rnaGetSlotVptr, krGetPhysicalPageAddress_congr h]

theorem RootFilling.congr {k : Nat} {pmm : KrPhysmemmgmtState} (h : RootFilling r k x)
    (hsize : SameSize x.pmm pmm) : RootFilling r k { x with pmm } := by
  have hptr : rnaGetMetaSlotVptr { x with pmm } r = rnaGetMetaSlotVptr x r :=
    rnaGetMetaSlotVptr_congr hsize.1 r
  refine ⟨h.root, h.pages, ?_, ?_⟩
  · have hvalid := h.valid
    simp only [krIsValidPageID, hsize.1] at hvalid ⊢
    exact hvalid
  · rw [hptr]
    exact h.rootMeta

theorem RootFilling.acquire {k : Nat} (h : RootFilling r k x) (hk : k < 31) :
    ∃ y, rnaAcquireNode x =
        some (virtAddrBase + wrap32 (r * KR_PAGE_SIZE) + (k + 1) * RNA_SLOT_SIZE, y) ∧
      RootFilling r (k + 1) y ∧ y.pmm = x.pmm := by
  obtain ⟨hfree, hctz, hbitmap⟩ := occupied_step k hk
  have hptr : rnaGetMetaSlotVptr x r ≠ 0 := rnaGetSlotVptr_ne_zero r 0
  have hchoose : rnaChoose x (2 ^ 32) (rnaGetMetaSlotVptr x x.rnaRootPageID) =
      some (rnaGetMetaSlotVptr x r, x) := by
    rw [h.root]
    refine rnaChoose_free (by decide) ?_
    rw [h.rootMeta]
    exact hfree
  have hslot := rnaGetSlotVptr_of_valid h.valid (k + 1)
  have hslot0 := rnaGetSlotVptr_of_valid h.valid 0
  refine ⟨(rnaTakeSlot x (rnaGetMetaSlotVptr x r)).2, ?_, ⟨h.root, h.pages, h.valid, ?_⟩, rfl⟩
  · rw [rnaAcquireNode, hchoose]
    dsimp only
    rw [if_neg hptr, ← hslot, rnaTakeSlot, h.rootMeta, hctz]
    rfl
  · have hsame : rnaGetMetaSlotVptr (rnaTakeSlot x (rnaGetMetaSlotVptr x r)).2 r =
        rnaGetMetaSlotVptr x r := rfl
    rw [hsame, rnaTakeSlot, h.rootMeta, hctz, hbitmap]
    unfold krtlContiguousZeroBuffer setMeta
    dsimp only
    have hpast : ¬(rnaGetSlotVptr x r (k + 1) ≤ rnaGetMetaSlotVptr x r ∧
        rnaGetMetaSlotVptr x r < rnaGetSlotVptr x r (k + 1) + SIZEOF_REGION) := by
      rw [rnaGetMetaSlotVptr, hslot, hslot0]
      unfold RNA_SLOT_SIZE
      omega
    refine (if_neg hpast).trans ?_
    rw [Function.update_self, Nat.mod_eq_of_lt (by omega)]

theorem rnaNewPage_cases (x : VmmState) (p : Nat) :
    ((pmAcquirePage x.pmm PAGE_TYPE_RNA IVLDPGID).1 = IVLDPGID ∧
      rnaNewPage x p = (0, { x with pmm := (pmAcquirePage x.pmm PAGE_TYPE_RNA IVLDPGID).2 })) ∨
    (rnaNewPage x p).1 ≠ 0 ∧
      (pmAcquirePage x.pmm PAGE_TYPE_RNA IVLDPGID).1 ≠ IVLDPGID ∧
      (rnaNewPage x p).2.pmm = (pmAcquirePage x.pmm PAGE_TYPE_RNA IVLDPGID).2 ∧
      (rnaNewPage x p).2.rnaPages =
        (pmAcquirePage x.pmm PAGE_TYPE_RNA IVLDPGID).1 :: x.rnaPages ∧
      ((rnaNewPage x p).2.metas (rnaNewPage x p).1).this = 0 ∧
      ((rnaNewPage x p).2.metas (rnaNewPage x p).1).bitmap = 1#64 := by
  by_cases hnone : (pmAcquirePage x.pmm PAGE_TYPE_RNA IVLDPGID).1 = IVLDPGID
  · left
    refine ⟨hnone, ?_⟩
    rw [rnaNewPage, if_pos hnone]
  · right
    unfold rnaNewPage
    rw [if_neg hnone]
    refine ⟨rnaGetSlotVptr_ne_zero _ 0, hnone, rfl, rfl, ?_, ?_⟩
    · dsimp only [setMeta, krtlContiguousZeroBuffer]
      rw [Function.update_self]
      generalize rnaGetMetaSlotVptr _ _ = q
      have hzero : q ≤ q ∧ q < q + KR_PAGE_SIZE := ⟨le_rfl, Nat.lt_add_of_pos_right (by decide)⟩
      by_cases hq : q = p
      · subst hq
        rw [Function.update_self, Function.update_self, if_pos hzero]
      · rw [Function.update_of_ne hq, Function.update_self, if_pos hzero]
    · dsimp only [setMeta]
      rw [Function.update_self]

/-- What follows the root's 31 nodes, if anything does, is slot 1 of page 0. -/
theorem RootFilling.acquire_full (h : RootFilling r 31 x) :
    ((pmAcquirePage x.pmm PAGE_TYPE_RNA IVLDPGID).1 = IVLDPGID ∧ rnaAcquireNode x =
        some (0, { x with pmm := (pmAcquirePage x.pmm PAGE_TYPE_RNA IVLDPGID).2 })) ∨
      ∃ y, rnaAcquireNode x = some (virtAddrBase + RNA_SLOT_SIZE, y) := by
  have hchoose : rnaChoose x (2 ^ 32) (rnaGetMetaSlotVptr x x.rnaRootPageID) =
      some (rnaNewPage x (rnaGetMetaSlotVptr x r)) := by
    rw [h.root]
    refine rnaChoose_last (by decide) ?_ ?_
    · rw [h.rootMeta]
      rfl
    · rw [h.rootMeta]
  rcases rnaNewPage_cases x (rnaGetMetaSlotVptr x r) with ⟨hid, hnone⟩ | ⟨hne, _, _, _, hthis, hbitmap⟩
  · left
    refine ⟨hid, ?_⟩
    rw [rnaAcquireNode, hchoose, hnone]
    rfl
  · right
    refine ⟨(rnaTakeSlot (rnaNewPage x (rnaGetMetaSlotVptr x r)).2
      (rnaNewPage x (rnaGetMetaSlotVptr x r)).1).2, ?_⟩
    have hslot : ctzl (~~~1#64) = 1 := by decide
    rw [rnaAcquireNode, hchoose]
    dsimp only
    rw [if_neg hne, rnaTakeSlot, hthis, hbitmap]
    refine congrArg some (Prod.ext ?_ rfl)
    dsimp only
    rw [hslot, rnaGetSlotVptr_zero, Nat.one_mul]

theorem rnaChoose_cases {fuel p : Nat} {z : Nat × VmmState} (h : rnaChoose x fuel p = some z) :
    (∃ q, z = (q, x)) ∨ ∃ q, z = rnaNewPage x q := by
  induction fuel generalizing p with
  | zero => exact absurd h (by simp [rnaChoose])
  | succ fuel ih =>
    rw [rnaChoose] at h
    split at h
    · exact Or.inl ⟨p, (Option.some.inj h).symm⟩
    · split at h
      · exact ih h
      · exact Or.inr ⟨p, (Option.some.inj h).symm⟩

theorem rnaAcquireNode_source {p : Nat} (h : rnaAcquireNode x = some (p, y)) :
    ∃ z, (z = x ∨ ∃ q, z = (rnaNewPage x q).2) ∧ y.pmm = z.pmm ∧ y.rnaPages = z.rnaPages := by
  unfold rnaAcquireNode at h
  split at h
  · exact absurd h (by simp)
  · rename_i q z hchoose
    have hz : z = x ∨ ∃ q, z = (rnaNewPage x q).2 := by
      rcases rnaChoose_cases hchoose with ⟨_, heq⟩ | ⟨q', heq⟩
      · exact Or.inl (congrArg Prod.snd heq)
      · exact Or.inr ⟨q', congrArg Prod.snd heq⟩
    refine ⟨z, hz, ?_⟩
    rw [Option.some.injEq] at h
    split at h
    · cases h
      exact ⟨rfl, rfl⟩
    · have hy : y = (rnaTakeSlot z q).2 := (congrArg Prod.snd h).symm
      rw [hy]
      exact ⟨rfl, rfl⟩

theorem rnaAcquireNode_pmm {p : Nat} (h : rnaAcquireNode x = some (p, y)) :
    y.pmm = x.pmm ∨ y.pmm = (pmAcquirePage x.pmm PAGE_TYPE_RNA IVLDPGID).2 := by
  obtain ⟨z, rfl | ⟨q, rfl⟩, hpmm, _⟩ := rnaAcquireNode_source h
  · exact Or.inl hpmm
  · rw [hpmm]
    rcases rnaNewPage_cases x q with ⟨_, hnone⟩ | ⟨_, _, hnew, _⟩
    · exact Or.inr (congrArg (fun r => r.2.pmm) hnone)
    · exact Or.inr hnew

theorem rnaAcquireNode_pages {p : Nat} (hs : WellSized x.pmm)
    (h : rnaAcquireNode x = some (p, y)) :
    UsageOnly x.pmm y.pmm ∧ (y.rnaPages = x.rnaPages ∨
      ∃ page, krIsPhysicalPageReserved x.pmm page = false ∧ y.rnaPages = page :: x.rnaPages) := by
  obtain ⟨z, rfl | ⟨q, rfl⟩, hpmm, hpages⟩ := rnaAcquireNode_source h
  · rw [hpmm, hpages]
    exact ⟨UsageOnly.refl, Or.inl rfl⟩
  · rw [hpmm, hpages]
    have husage := usageOnly_pmAcquirePage x.pmm PAGE_TYPE_RNA IVLDPGID
    rcases rnaNewPage_cases x q with ⟨_, hnone⟩ | ⟨_, hid, hnew, hlist, _⟩
    · rw [hnone]
      exact ⟨husage, Or.inl rfl⟩
    · rw [hnew, hlist]
      have hun := (pmAcquirePage_unreserved hs PAGE_TYPE_RNA IVLDPGID).resolve_left hid
      exact ⟨husage, Or.inr ⟨_, hun, rfl⟩⟩

/-- One call of the allocator, or others at work on the physical pages. The list holds the
nodes handed out so far. -/
inductive RnaStep : VmmState × List Nat → VmmState × List Nat → Prop where
  | acquire (x y : VmmState) (nodes : List Nat) (pNode : Nat)
      (h : rnaAcquireNode x = some (pNode, y)) :
      RnaStep (x, nodes) (y, if pNode = 0 then nodes else pNode :: nodes)
  | others (x : VmmState) (nodes : List Nat) (pmm : KrPhysmemmgmtState)
      (h : PmmStep x.pmm pmm) : RnaStep (x, nodes) ({ x with pmm }, nodes)

structure NodesSound (x : VmmState) (nodes : List Nat) : Prop where
  distinct : nodes.Nodup
  inPage : ∀ p ∈ nodes, ∃ page ∈ x.rnaPages, ∃ slot, 1 ≤ slot ∧ slot < RNA_NUMBER_OF_SLOTS ∧
    p = virtAddrBase + page * KR_PAGE_SIZE + slot * RNA_SLOT_SIZE

/-- Up to 31 nodes the root page fills up; then the first node in page 0 is there for good. -/
def RnaInv (r : Nat) (s : VmmState × List Nat) : Prop :=
  (∃ k ≤ 31, s.2 = slotsOf r k ∧ RootFilling r k s.1) ∨
    (31 < s.2.length ∧ virtAddrBase + RNA_SLOT_SIZE ∈ s.2)

theorem RnaInv.step {s t : VmmState × List Nat} (h : RnaInv r s) (hstep : RnaStep s t) :
    RnaInv r t := by
  cases hstep with
  | acquire x y nodes pNode hacq =>
    rcases h with ⟨k, hk, hnodes, hfill⟩ | ⟨hlen, hmem⟩
    · dsimp only at hnodes hfill
      by_cases hlast : k < 31
      · obtain ⟨y', hacq', hfill', _⟩ := hfill.acquire hlast
        rw [hacq', Option.some.injEq, Prod.mk.injEq] at hacq
        obtain ⟨rfl, rfl⟩ := hacq
        left
        refine ⟨k + 1, hlast, ?_, hfill'⟩
        rw [slotsOf_succ, ← hnodes, if_neg]
        unfold RNA_SLOT_SIZE
        omega
      · have hk31 : k = 31 := by omega
        subst hk31
        rcases hfill.acquire_full with ⟨_, hacq'⟩ | ⟨y', hacq'⟩
        · rw [hacq', Option.some.injEq, Prod.mk.injEq] at hacq
          obtain ⟨rfl, rfl⟩ := hacq
          left
          exact ⟨31, le_rfl, hnodes, hfill.congr (usageOnly_pmAcquirePage _ _ _).sameSize⟩
        · rw [hacq', Option.some.injEq, Prod.mk.injEq] at hacq
          obtain ⟨rfl, rfl⟩ := hacq
          right
          rw [if_neg (by unfold RNA_SLOT_SIZE; omega), List.length_cons, hnodes]
          refine ⟨?_, List.mem_cons_self⟩
          rw [slotsOf, List.length_map, List.length_reverse, List.length_range]
          decide
    · right
      dsimp only at hlen hmem ⊢
      split
      · exact ⟨hlen, hmem⟩
      · exact ⟨Nat.lt_succ_of_lt hlen, List.mem_cons_of_mem _ hmem⟩
  | others x nodes pmm hpmm =>
    rcases h with ⟨k, hk, hnodes, hfill⟩ | hlate
    · exact Or.inl ⟨k, hk, hnodes, hfill.congr hpmm.sameSize⟩
    · exact Or.inr hlate

structure ZeroReserved (s : VmmState × List Nat) : Prop where
  sized : WellSized s.1.pmm
  reserved : krIsPhysicalPageReserved s.1.pmm 0 = true
  apart : 0 ∉ s.1.rnaPages

theorem ZeroReserved.step {s t : VmmState × List Nat} (h : ZeroReserved s)
    (hstep : RnaStep s t) : ZeroReserved t := by
  cases hstep with
  | acquire x y nodes pNode hacq =>
    obtain ⟨husage, hpages⟩ := rnaAcquireNode_pages h.sized hacq
    refine ⟨husage.sameSize.wellSized h.sized, (husage.reserved 0).trans h.reserved, ?_⟩
    rcases hpages with hsame | ⟨page, hun, hcons⟩
    · dsimp only
      rw [hsame]
      exact h.apart
    · dsimp only
      rw [hcons, List.mem_cons, not_or]
      refine ⟨fun hzero => ?_, h.apart⟩
      have hres := h.reserved
      rw [hzero] at hres
      exact absurd (hres.symm.trans hun) (by decide)
  | others x nodes pmm hpmm =>
    exact ⟨hpmm.sameSize.wellSized h.sized, hpmm.reserved h.reserved, h.apart⟩

theorem rnaInit_spec {x₀ : VmmState} (hs : WellSized x₀.pmm) (ht : TailSet x₀.pmm)
    (hpages : x₀.rnaPages = []) (hinit : rnaInit x₀ = (true, x)) :
    RootFilling x.rnaRootPageID 0 x ∧
      (krIsPhysicalPageReserved x₀.pmm 0 = true → ZeroReserved (x, [])) := by
  have husage := usageOnly_pmAcquirePage x₀.pmm PAGE_TYPE_RNA IVLDPGID
  unfold rnaInit at hinit
  split at hinit
  · exact absurd (congrArg Prod.fst hinit) Bool.false_ne_true
  · dsimp only at hinit
    split at hinit
    · exact absurd (congrArg Prod.fst hinit) Bool.false_ne_true
    · rename_i hid
      obtain rfl := (Prod.mk.inj hinit).2
      rcases pmAcquirePage_cases hs ht PAGE_TYPE_RNA IVLDPGID with hnone | ⟨p, hp, hlt, hfree, _⟩
      · exact absurd (congrArg Prod.fst hnone) hid
      · have hreserve : SameSize (pmAcquirePage x₀.pmm PAGE_TYPE_RNA IVLDPGID).2
            (krReservePhysicalPage (pmAcquirePage x₀.pmm PAGE_TYPE_RNA IVLDPGID).2
              (pmAcquirePage x₀.pmm PAGE_TYPE_RNA IVLDPGID).1).2 :=
          sameSize_krReservePhysicalPage _
        refine ⟨⟨rfl, ?_, ?_, ?_⟩, fun hzero => ⟨?_, ?_, ?_⟩⟩
        · dsimp only [setMeta, krtlContiguousZeroBuffer]
          rw [hpages]
        · dsimp only [setMeta, krtlContiguousZeroBuffer]
          rw [krIsValidPageID_iff, hreserve.1, husage.sameSize.1]
          exact ⟨hid, by rw [hp]; exact hlt⟩
        · simp only [rnaGetMetaSlotVptr, rnaGetSlotVptr, setMeta, krtlContiguousZeroBuffer]
          rw [krGetPhysicalPageAddress_congr hreserve.1, Function.update_self]
          rfl
        · exact hreserve.wellSized (husage.sameSize.wellSized hs)
        · exact reserved_krReservePhysicalPage _ ((husage.reserved 0).trans hzero)
        · dsimp only [setMeta, krtlContiguousZeroBuffer]
          rw [hpages, hp, List.mem_singleton]
          intro h0
          rw [← h0, pageFree_iff, hzero] at hfree
          exact absurd hfree.2 (by decide)

variable {x₀ x₁ : VmmState} {nodes : List Nat}

theorem ZeroReserved.not_sound (h : ZeroReserved (x, nodes))
    (hmem : virtAddrBase + RNA_SLOT_SIZE ∈ nodes) : ¬NodesSound x nodes := by
  intro hsound
  obtain ⟨page, hpage, slot, _, hslot, heq⟩ := hsound.inPage _ hmem
  have hpage0 : page = 0 := by
    unfold RNA_NUMBER_OF_SLOTS KR_PAGE_SIZE RNA_SLOT_SIZE at *
    omega
  rw [hpage0] at hpage
  exact h.apart hpage

/-- The allocator is right for its first 31 nodes, when the root page lies below 4 GiB, and
on a machine that keeps page 0 out of use, never after that. -/
theorem nodesSound_iff (hs : WellSized x₀.pmm) (ht : TailSet x₀.pmm) (hpages : x₀.rnaPages = [])
    (hinit : rnaInit x₀ = (true, x₁)) (hrun : Run RnaStep (x₁, []) (x, nodes)) :
    (nodes = [] ∨ (nodes.length ≤ 31 ∧ x₁.rnaRootPageID < 2 ^ 20) → NodesSound x nodes) ∧
    (krIsPhysicalPageReserved x₀.pmm 0 = true → NodesSound x nodes →
      nodes = [] ∨ (nodes.length ≤ 31 ∧ x₁.rnaRootPageID < 2 ^ 20)) := by
  obtain ⟨hroot, hzero⟩ := rnaInit_spec hs ht hpages hinit
  have hinv : RnaInv x₁.rnaRootPageID (x, nodes) :=
    Run.invariant (I := RnaInv x₁.rnaRootPageID) (fun _ _ h hstep => h.step hstep) hrun
      (Or.inl ⟨0, by decide, rfl, hroot⟩)
  constructor
  · rintro (rfl | ⟨hlen, hlow⟩)
    · exact ⟨List.nodup_nil, fun _ hp => absurd hp List.not_mem_nil⟩
    · rcases hinv with ⟨k, hk, hnodes, hfill⟩ | ⟨hlate, _⟩
      · dsimp only at hnodes
        rw [hnodes]
        refine ⟨slotsOf_nodup _ k, fun p hp => ?_⟩
        obtain ⟨i, hi, rfl⟩ := mem_slotsOf.mp hp
        refine ⟨x₁.rnaRootPageID, ?_, i + 1, by omega, ?_, ?_⟩
        · rw [hfill.pages]
          exact List.mem_singleton_self _
        · unfold RNA_NUMBER_OF_SLOTS KR_PAGE_SIZE RNA_SLOT_SIZE
          omega
        · rw [wrap32_of_lt]
          unfold KR_PAGE_SIZE
          omega
      · exact absurd hlen (by dsimp only at hlate; omega)
  · intro hreserved hsound
    rcases hinv with ⟨k, hk, hnodes, hfill⟩ | ⟨_, hmem⟩
    · dsimp only at hnodes
      cases k with
      | zero => exact Or.inl hnodes
      | succ k =>
        right
        have hlen : nodes.length = k + 1 := by
          rw [hnodes, slotsOf, List.length_map, List.length_reverse, List.length_range]
        have hfirst : virtAddrBase + wrap32 (x₁.rnaRootPageID * KR_PAGE_SIZE) +
            (0 + 1) * RNA_SLOT_SIZE ∈ nodes := by
          rw [hnodes]
          exact mem_slotsOf.mpr ⟨0, Nat.succ_pos k, rfl⟩
        obtain ⟨page, hpage, slot, hslot, _, heq⟩ := hsound.inPage _ hfirst
        rw [hfill.pages, List.mem_singleton] at hpage
        rw [hpage] at heq
        have hwrap := wrap32_lt (x₁.rnaRootPageID * KR_PAGE_SIZE)
        have hle : wrap32 (x₁.rnaRootPageID * KR_PAGE_SIZE) ≤ x₁.rnaRootPageID * KR_PAGE_SIZE :=
          Nat.mod_le _ _
        unfold KR_PAGE_SIZE RNA_SLOT_SIZE at *
        omega
    · have hz : ZeroReserved (x, nodes) :=
        Run.invariant (I := ZeroReserved) (fun _ _ h hstep => h.step hstep) hrun
          (hzero hreserved)
      exact absurd hsound (hz.not_sound hmem)

theorem RootFilling.calls (h : RootFilling r 0 x) {k : Nat} (hk : k ≤ 31) :
    ∃ y, Run RnaStep (x, []) (y, slotsOf r k) ∧ RootFilling r k y ∧ y.pmm = x.pmm := by
  induction k with
  | zero => exact ⟨x, Relation.ReflTransGen.refl, h, rfl⟩
  | succ k ih =>
    obtain ⟨y, hrun, hfill, hpmm⟩ := ih (by omega)
    obtain ⟨z, hacq, hfill', hpmm'⟩ := hfill.acquire hk
    have hstep := RnaStep.acquire y z (slotsOf r k) _ hacq
    rw [if_neg (by unfold RNA_SLOT_SIZE; omega), ← slotsOf_succ] at hstep
    exact ⟨z, hrun.tail hstep, hfill', hpmm'.trans hpmm⟩

def smallVmm : VmmState :=
  { pmm := smallBoot
    rnaRootPageID := IVLDPGID
    rnaPages := []
    metas := fun _ => ⟨0, 0, 0, 0, 0⟩
    regions := fun _ => ⟨0, 0, 0, none, 0, 0, 0⟩
    addressSpaces := fun _ => ⟨0, 0, 0, 0⟩
    kernelAddressSpace := 0 }

def smallRna : VmmState := (rnaInit smallVmm).2

theorem rnaInit_smallVmm : rnaInit smallVmm = (true, smallRna) := by
  have hsucc : (rnaInit smallVmm).1 = true := by decide +kernel
  unfold smallRna
  rw [← hsucc]

theorem smallVmm_sized : WellSized smallVmm.pmm := postInit_smallBoot.booted.sized

theorem smallVmm_tailSet : TailSet smallVmm.pmm := postInit_smallBoot.booted.tailSet

theorem smallVmm_pages : smallVmm.rnaPages = [] := rfl

theorem smallRna_root : smallRna.rnaRootPageID = 256 := by decide +kernel

theorem rootFilling_smallRna :
    RootFilling 256 0 smallRna ∧ ZeroReserved (smallRna, []) := by
  obtain ⟨hfill, hzero⟩ :=
    rnaInit_spec smallVmm_sized smallVmm_tailSet smallVmm_pages rnaInit_smallVmm
  rw [smallRna_root] at hfill
  exact ⟨hfill, hzero (by decide +kernel)⟩

theorem nodesSound_iff_smallRna :
    ∃ y, Run RnaStep (smallRna, []) (y, slotsOf 256 31) ∧ NodesSound y (slotsOf 256 31) := by
  obtain ⟨y, hrun, _⟩ := rootFilling_smallRna.1.calls le_rfl
  refine ⟨y, hrun, (nodesSound_iff smallVmm_sized smallVmm_tailSet smallVmm_pages
    rnaInit_smallVmm hrun).1 (Or.inr ⟨by decide, ?_⟩)⟩
  rw [smallRna_root]
  decide

/-- The 32nd call acquires page 257 and returns slot 1 of page 0. -/
theorem node_in_page_zero :
    ∃ y nodes, Run RnaStep (smallRna, []) (y, nodes) ∧ nodes.length = 32 ∧
      ¬NodesSound y nodes := by
  obtain ⟨hroot, hzero⟩ := rootFilling_smallRna
  obtain ⟨y, hrun, hfill, hpmm⟩ := hroot.calls le_rfl
  rcases hfill.acquire_full with ⟨hnone, _⟩ | ⟨z, hacq⟩
  · rw [hpmm] at hnone
    exact absurd hnone (by decide +kernel)
  · have hstep := RnaStep.acquire y z (slotsOf 256 31) _ hacq
    rw [if_neg (by decide)] at hstep
    have hrun' := hrun.tail hstep
    have hz : ZeroReserved (z, _) :=
      Run.invariant (I := ZeroReserved) (fun _ _ h hstep => h.step hstep) hrun' hzero
    exact ⟨z, _, hrun', by decide, hz.not_sound List.mem_cons_self⟩

end Ych.Virtmemmgmt
