import Ych.Memory.PageAddress
import Ych.Memory.PageWalk
import Ych.Memory.PhysmemRun

/-! Finding or creating a paging structure: with fresh pages in the memory manager no
translation changes, and the structures stay a tree. -/
namespace Ych.PTE
open Words Bitmap PageTree PAT Physmemmgmt Virtmemmgmt
open KrVirtualAddressMode KrTypePTE

variable {x y z : PagingState} {root a base q index s L : Nat} {type : KrTypePTE}
  {psl : KrPatSelect} {p : List (Fin 512)}

theorem krVirtToPhys_krPhysToVirt (h : a < 2 ^ 64) : krVirtToPhys (krPhysToVirt a) = a := by
  have hbase : virtAddrBase = 0xFFFF800000000000 := by decide
  unfold krVirtToPhys krPhysToVirt sub64 wrap64
  omega

theorem entryAt_setEntryAt (x : PagingState) (pContainer index e : Nat) :
    entryAt (setEntryAt x pContainer index e) pContainer index = e := by
  simp only [entryAt, setEntryAt, setEntry_self]

def PagingOnly (x y : PagingState) : Prop :=
  ∃ tables pmm n, y = { x with
    tables, vmm := { x.vmm with pmm }, numIvldEncodeOfPTEs := n }

theorem PagingOnly.refl : PagingOnly x x := ⟨_, _, _, rfl⟩

theorem PagingOnly.trans (h : PagingOnly x y) (h' : PagingOnly y z) : PagingOnly x z := by
  obtain ⟨t, m, n, rfl⟩ := h
  obtain ⟨t', m', n', rfl⟩ := h'
  exact ⟨t', m', n', rfl⟩

theorem PagingOnly.regions (h : PagingOnly x y) : y.vmm.regions = x.vmm.regions := by
  obtain ⟨t, m, n, rfl⟩ := h
  rfl

def supportedFlags (x : PagingState) (q : Nat) : Nat :=
  if x.bInitialized && !x.bNoExecuteSupport then q &&& not64 PTE_NX else q

theorem PagingOnly.supportedFlags (h : PagingOnly x y) (q : Nat) :
    supportedFlags y q = supportedFlags x q := by
  obtain ⟨t, m, n, rfl⟩ := h
  rfl

theorem FlagsOnly.supported (hq : FlagsOnly q) : FlagsOnly (supportedFlags x q) := by
  unfold supportedFlags
  split
  · refine ⟨Nat.and_le_left.trans_lt hq.lt, ?_, fun j h1 h2 => ?_⟩
    · rw [Nat.testBit_and, hq.present]
      decide
    · rw [Nat.testBit_and, hq.clear j h1 h2, Bool.false_and]
  · exact hq

/-- The entry does not come out as the mark of a failure. -/
structure Encodable (x : PagingState) (type : KrTypePTE) (base q : Nat) (psl : KrPatSelect) :
    Prop where
  aligned : base &&& sub64 (krGetPteTypeAlignment type) 1 = 0
  unmarked : krMakeFlagsForPTEv2 type (supportedFlags x q) psl ||| base ≠
    KR_PTE2_ENCODE_FAILURE_DUE_TO_ALIGNMENT

theorem pteEncodeEntry_of_mask (h : base &&& sub64 (krGetPteTypeAlignment type) 1 = 0) :
    pteEncodeEntry x type base q psl =
      (krMakeFlagsForPTEv2 type (supportedFlags x q) psl ||| base, x) := by
  rw [pteEncodeEntry, if_neg (not_not.mpr h)]
  rfl

theorem mask_of_dvd {k : Nat} (hk : krGetPteTypeAlignment type = 2 ^ k) (hk64 : k < 64)
    (hdvd : 2 ^ k ∣ base) : base &&& sub64 (krGetPteTypeAlignment type) 1 = 0 := by
  rw [hk, sub64_of_le Nat.one_le_two_pow (Nat.pow_lt_pow_right (by decide) hk64),
    Nat.and_two_pow_sub_one_eq_mod, Nat.mod_eq_zero_of_dvd hdvd]

theorem pteEncodeEntry_aligned {k : Nat} (hk : krGetPteTypeAlignment type = 2 ^ k) (hk64 : k < 64)
    (hdvd : 2 ^ k ∣ base) :
    pteEncodeEntry x type base q psl =
      (krMakeFlagsForPTEv2 type (supportedFlags x q) psl ||| base, x) :=
  pteEncodeEntry_of_mask (mask_of_dvd hk hk64 hdvd)

theorem pteEncodeEntry_misaligned {k : Nat} (hk : krGetPteTypeAlignment type = 2 ^ k)
    (hk64 : k < 64) (hdvd : ¬2 ^ k ∣ base) :
    (pteEncodeEntry x type base q psl).1 = KR_PTE2_ENCODE_FAILURE_DUE_TO_ALIGNMENT := by
  have hmask : base &&& sub64 (krGetPteTypeAlignment type) 1 ≠ 0 := by
    rw [hk, sub64_of_le Nat.one_le_two_pow (Nat.pow_lt_pow_right (by decide) hk64),
      Nat.and_two_pow_sub_one_eq_mod]
    exact fun h => hdvd (Nat.dvd_of_mod_eq_zero h)
  rw [pteEncodeEntry, if_pos hmask]

/-- The structures below the root are a tree, and every free page of the memory manager is a
fresh one with an address of its own. -/
structure PagingOk (x : PagingState) (root : Nat) : Prop where
  tree : Tree slot x.tables 4 root
  sized : WellSized x.vmm.pmm
  tail : TailSet x.vmm.pmm
  fresh : ∀ n < x.vmm.pmm.nrPages, pageFree x.vmm.pmm n = true →
    ∀ p, descend slot x.tables 4 root p ≠ some (krGetPhysicalPageAddress x.vmm.pmm n)
  apart : ∀ n < x.vmm.pmm.nrPages, ∀ m < x.vmm.pmm.nrPages, pageFree x.vmm.pmm n = true →
    pageFree x.vmm.pmm m = true →
    krGetPhysicalPageAddress x.vmm.pmm n = krGetPhysicalPageAddress x.vmm.pmm m → n = m

theorem PagingOk.congr (hok : PagingOk x root) (htables : y.tables = x.tables)
    (hpmm : y.vmm.pmm = x.vmm.pmm) : PagingOk y root := by
  refine ⟨?_, ?_, ?_, ?_, ?_⟩
  · rw [htables]
    exact hok.tree
  · rw [hpmm]
    exact hok.sized
  · rw [hpmm]
    exact hok.tail
  · rw [hpmm, htables]
    exact hok.fresh
  · rw [hpmm]
    exact hok.apart

theorem PagingOk.granted {n : Nat} {pmm : KrPhysmemmgmtState} (hok : PagingOk x root)
    (hg : Granted x.vmm.pmm [n] pmm) : PagingOk (setPmm x pmm) root := by
  have hnr : pmm.nrPages = x.vmm.pmm.nrPages := hg.frame.2.1
  have hfrees := pageFree_granted hg
  have haddr : ∀ k, krGetPhysicalPageAddress (setPmm x pmm).vmm.pmm k =
      krGetPhysicalPageAddress x.vmm.pmm k := krGetPhysicalPageAddress_congr hnr
  have hpages : (setPmm x pmm).vmm.pmm.nrPages = x.vmm.pmm.nrPages := hnr
  refine ⟨hok.tree, Granted.sized hg hok.sized, Granted.tail hg hok.tail, fun k hk hkfree => ?_,
    fun k hk m hm hkfree hmfree => ?_⟩
  · rw [haddr]
    exact hok.fresh k (hpages ▸ hk) ((hfrees k).mp hkfree).1
  · rw [haddr, haddr]
    exact hok.apart k (hpages ▸ hk) m (hpages ▸ hm) ((hfrees k).mp hkfree).1
      ((hfrees m).mp hmfree).1

theorem PagingOk.pmAcquirePage (hok : PagingOk x root) (pageType hintID : Nat) :
    PagingOk (setPmm x (pmAcquirePage x.vmm.pmm pageType hintID).2) root := by
  rcases pmAcquirePage_cases hok.sized hok.tail pageType hintID with hnone | ⟨n, _, _, _, hg⟩
  · rw [hnone]
    exact hok.congr rfl rfl
  · exact hok.granted hg

theorem pageAddress_aligned (st : KrPhysmemmgmtState) (n : Nat) :
    2 ^ 12 ∣ krGetPhysicalPageAddress st n ∧ krGetPhysicalPageAddress st n < 2 ^ 32 := by
  unfold krGetPhysicalPageAddress
  split
  · exact ⟨Nat.dvd_zero _, by decide⟩
  · unfold wrap32 KR_PAGE_SIZE
    omega

theorem hasFlag_present (e : Nat) : hasFlag e PTE_PRESENT = e.testBit 0 := by
  have h : e &&& PTE_PRESENT = e % 2 := Nat.and_one_is_mod e
  rw [hasFlag, h, Nat.testBit_zero]
  rcases Nat.mod_two_eq_zero_or_one e with h0 | h1
  · rw [h0]
    rfl
  · rw [h1]
    rfl

theorem slot_absent {level e : Nat} (h : hasFlag e PTE_PRESENT = false) : slot level e = .absent := by
  rw [hasFlag_present] at h
  rw [slot, h]
  rfl

theorem slot_table {level e : Nat} (h : hasFlag e PTE_PRESENT = true) (hleaf : slot level e ≠ .leaf) :
    slot level e = .table (e &&& PTE_PHYSADDR_MASK) := by
  rw [hasFlag_present] at h
  rw [slot, h, if_neg (by decide)] at hleaf ⊢
  rw [if_neg fun hc => hleaf (if_pos hc)]

theorem slot_zero (level : Nat) : slot level 0 = .absent := rfl

theorem masked_lt (e : Nat) : e &&& PTE_PHYSADDR_MASK < 2 ^ 52 :=
  Nat.and_le_right.trans_lt (by decide)

theorem PagingOk.hang {n e : Nat} {pmm : KrPhysmemmgmtState} {i : Fin 512} (hok : PagingOk x root)
    (hd : p.length + (L + 1) = 4) (ha : descend slot x.tables 4 root p = some a)
    (hold : slot L (x.tables a i) = .absent) (hn : n < x.vmm.pmm.nrPages)
    (hfree : pageFree x.vmm.pmm n = true) (hg : Granted x.vmm.pmm [n] pmm)
    (he : slot L e = .table (krGetPhysicalPageAddress x.vmm.pmm n))
    (hy : y.vmm.pmm = pmm ∧ y.tables = Function.update (setEntry x.tables a i e)
      (krGetPhysicalPageAddress x.vmm.pmm n) fun _ => 0) :
    PagingOk y root ∧ (∀ q, walk slot y.tables 4 root q = walk slot x.tables 4 root q) ∧
      ∀ q b, descend slot y.tables 4 root q = some b ↔ descend slot x.tables 4 root q = some b ∨
        q = p ++ [i] ∧ b = krGetPhysicalPageAddress x.vmm.pmm n := by
  have hT : Tree slot x.tables (p.length + (L + 1)) root := hd.symm ▸ hok.tree
  have hfresh := hok.fresh n hn hfree
  have hapart := hok.apart n hn
  obtain ⟨hpmm, htables⟩ := hy
  rw [← hd] at ha hfresh
  have hnr : pmm.nrPages = x.vmm.pmm.nrPages := hg.frame.2.1
  generalize ht : krGetPhysicalPageAddress x.vmm.pmm n = t at *
  have hta : t ≠ a := fun heq => hfresh p (heq ▸ ha)
  have hcomm : Function.update (setEntry x.tables a i e) t (fun _ => 0) =
      setEntry (Function.update x.tables t fun _ => 0) a i e := by
    rw [setEntry, setEntry, Function.update_comm hta, Function.update_of_ne hta.symm]
  have hhung := hT.hang ha hold he hfresh slot_zero
  rw [← hcomm, ← htables, hd] at hhung
  refine ⟨⟨hhung.tree, ?_, ?_, ?_, ?_⟩, hhung.walks, hhung.descends⟩
  · rw [hpmm]
    exact Granted.sized hg hok.sized
  · rw [hpmm]
    exact Granted.tail hg hok.tail
  · rw [hpmm, hnr]
    intro k hk hkfree q hq
    rw [krGetPhysicalPageAddress_congr hnr] at hq
    obtain ⟨hkfree', hkn⟩ := (pageFree_granted hg k).mp hkfree
    rcases (hhung.descends _ _).mp hq with hold'' | ⟨_, heq⟩
    · exact hok.fresh k hk hkfree' q hold''
    · exact hkn (hapart k hk hfree hkfree' heq.symm).symm
  · rw [hpmm, hnr]
    intro k hk m hm hkfree hmfree heq
    rw [krGetPhysicalPageAddress_congr hnr, krGetPhysicalPageAddress_congr hnr] at heq
    exact hok.apart k hk m hm ((pageFree_granted hg k).mp hkfree).1
      ((pageFree_granted hg m).mp hmfree).1 heq

/-- What a structure that is found or created leaves, translations above all. -/
structure StructKept (x y : PagingState) (root : Nat) : Prop where
  only : PagingOnly x y
  ok : PagingOk y root
  walks : ∀ q, walk slot y.tables 4 root q = walk slot x.tables 4 root q

theorem StructKept.trans (h : StructKept x y root) (h' : StructKept y z root) :
    StructKept x z root :=
  ⟨h.only.trans h'.only, h'.ok, fun q => (h'.walks q).trans (h.walks q)⟩

structure StructsGrown (x y : PagingState) (root : Nat) : Prop where
  stage : y.vmm.pmm.initStage = x.vmm.pmm.initStage
  pages : y.vmm.pmm.nrPages = x.vmm.pmm.nrPages
  advisory : y.vmm.pmm.pAdvisoryBitmap = x.vmm.pmm.pAdvisoryBitmap
  taken : ∀ n, bit x.vmm.pmm.pPrimaryBitmap n = true → bit y.vmm.pmm.pPrimaryBitmap n = true
  grown : ∀ p b, descend slot y.tables 4 root p = some b →
    descend slot x.tables 4 root p = some b ∨
      ∃ n < x.vmm.pmm.nrPages, pageFree x.vmm.pmm n = true ∧ b = krGetPhysicalPageAddress x.vmm.pmm n

theorem StructsGrown.refl : StructsGrown x x root :=
  ⟨rfl, rfl, rfl, fun _ h => h, fun _ _ h => Or.inl h⟩

theorem StructsGrown.free {n : Nat} (h : StructsGrown x y root)
    (hfree : pageFree y.vmm.pmm n = true) : pageFree x.vmm.pmm n = true := by
  rw [pageFree_iff, krIsPhysicalPageReserved_congr h.pages h.advisory] at hfree
  rw [pageFree_iff]
  refine ⟨?_, hfree.2⟩
  by_contra htaken
  rw [h.taken n ((Bool.not_eq_false _).mp htaken)] at hfree
  exact absurd hfree.1 (by decide)

theorem StructsGrown.trans (h : StructsGrown x y root) (h' : StructsGrown y z root) :
    StructsGrown x z root := by
  refine ⟨h'.stage.trans h.stage, h'.pages.trans h.pages, h'.advisory.trans h.advisory,
    fun n hn => h'.taken n (h.taken n hn), fun p b hb => ?_⟩
  rcases h'.grown p b hb with hold | ⟨n, hn, hfree, rfl⟩
  · exact h.grown p b hold
  · exact Or.inr ⟨n, h.pages ▸ hn, h.free hfree, krGetPhysicalPageAddress_congr h.pages n⟩

theorem TableType.alignment (h : TableType type L) : krGetPteTypeAlignment type = 2 ^ 12 := by
  cases h <;> rfl

theorem supportedFlags_lt (hq : q < 2 ^ 64) : supportedFlags x q < 2 ^ 64 := by
  unfold supportedFlags
  split
  · exact Nat.and_le_left.trans_lt hq
  · exact hq

theorem testBit_failure {j : Nat} (hj : j < 64) :
    KR_PTE2_ENCODE_FAILURE_DUE_TO_ALIGNMENT.testBit j = true := by
  rw [KR_PTE2_ENCODE_FAILURE_DUE_TO_ALIGNMENT, Nat.testBit_two_pow_sub_one, decide_eq_true hj]

/-- A structure's entry has no page size bit, so it is not the mark of a failed encoding. -/
theorem TableType.ne_failure (h : TableType type L) (hq : q < 2 ^ 64) (hdvd : 2 ^ 12 ∣ base) :
    krMakeFlagsForPTEv2 type q psl ||| base ≠ KR_PTE2_ENCODE_FAILURE_DUE_TO_ALIGNMENT := by
  intro heq
  have hbit := testBit_failure (j := 7) (by decide)
  rw [← heq, Nat.testBit_or, testBit_krMakeFlagsForPTEv2 hq, testBit_of_dvd hdvd (by decide)] at hbit
  cases h <;> simp [isPatBit] at hbit

/-- What `PteGetOrAcquirePageStruct` can do: find the structure, refuse, or hang in a zeroed
page that was free. -/
inductive StructStep (x : PagingState) (pContainer : Nat) (type : KrTypePTE) (index q : Nat)
    (psl : KrPatSelect) : Nat → PagingState → Prop where
  | found (h : hasFlag (entryAt x pContainer index) PTE_PRESENT = true) :
      StructStep x pContainer type index q psl
        (krPhysToVirt (entryAt x pContainer index &&& PTE_PHYSADDR_MASK)) x
  | refused (h : hasFlag (entryAt x pContainer index) PTE_PRESENT = false) :
      StructStep x pContainer type index q psl 0 x
  | hung (n : Nat) (pmm : KrPhysmemmgmtState)
      (h : hasFlag (entryAt x pContainer index) PTE_PRESENT = false) (hn : n < x.vmm.pmm.nrPages)
      (hfree : pageFree x.vmm.pmm n = true) (hg : Granted x.vmm.pmm [n] pmm)
      (henc : Encodable x type (krGetPhysicalPageAddress x.vmm.pmm n) q psl) :
      StructStep x pContainer type index q psl (krPhysToVirt (krGetPhysicalPageAddress x.vmm.pmm n))
        (zeroPage (setEntryAt (setPmm x pmm) pContainer index
            (krMakeFlagsForPTEv2 type (supportedFlags x q) psl ||| krGetPhysicalPageAddress x.vmm.pmm n))
          (krPhysToVirt (krGetPhysicalPageAddress x.vmm.pmm n)))

def StructSound (x : PagingState) (pContainer : Nat) (type : KrTypePTE) (index q : Nat)
    (psl : KrPatSelect) : Prop :=
  hasFlag (entryAt x pContainer index) PTE_PRESENT = false → ∀ n < x.vmm.pmm.nrPages,
    (pmAcquirePage x.vmm.pmm PAGE_TYPE_PAGE_STRUCT IVLDPGID).1 = n →
      Encodable x type (krGetPhysicalPageAddress x.vmm.pmm n) q psl

theorem TableType.sound (htype : TableType type L) (hq : q < 2 ^ 64) (pContainer index : Nat) :
    StructSound x pContainer type index q psl := by
  intro _ n _ _
  have haligned := (pageAddress_aligned x.vmm.pmm n).1
  exact ⟨mask_of_dvd htype.alignment (by decide) haligned,
    htype.ne_failure (supportedFlags_lt hq) haligned⟩

def hungPage (x : PagingState) (pmm : KrPhysmemmgmtState) (pContainer index n e : Nat) :
    PagingState :=
  zeroPage (setEntryAt (setPmm x pmm) pContainer index e)
    (krPhysToVirt (krGetPhysicalPageAddress x.vmm.pmm n))

theorem pteGetOrAcquirePageStruct_absent {pContainer : Nat} (hsized : WellSized x.vmm.pmm)
    (htail : TailSet x.vmm.pmm) (hsound : StructSound x pContainer type index q psl)
    (hpresent : hasFlag (entryAt x pContainer index) PTE_PRESENT = false) :
    (pmAcquirePage x.vmm.pmm PAGE_TYPE_PAGE_STRUCT IVLDPGID = (IVLDPGID, x.vmm.pmm) ∧
      pteGetOrAcquirePageStruct x pContainer type index q psl = some (0, x)) ∨
    ∃ n pmm, pmAcquirePage x.vmm.pmm PAGE_TYPE_PAGE_STRUCT IVLDPGID = (n, pmm) ∧ n ≠ IVLDPGID ∧
      n < x.vmm.pmm.nrPages ∧ pageFree x.vmm.pmm n = true ∧ Granted x.vmm.pmm [n] pmm ∧
      Encodable x type (krGetPhysicalPageAddress x.vmm.pmm n) q psl ∧
      pteGetOrAcquirePageStruct x pContainer type index q psl =
        some (krPhysToVirt (krGetPhysicalPageAddress x.vmm.pmm n),
          hungPage x pmm pContainer index n
            (krMakeFlagsForPTEv2 type (supportedFlags x q) psl |||
              krGetPhysicalPageAddress x.vmm.pmm n)) := by
  rw [pteGetOrAcquirePageStruct, hpresent, if_neg Bool.false_ne_true]
  dsimp only
  rcases pmAcquirePage_cases hsized htail PAGE_TYPE_PAGE_STRUCT IVLDPGID with
    hnone | ⟨n, hn, hlt, hfree, hg⟩
  · left
    rw [hnone, if_pos rfl]
    exact ⟨rfl, rfl⟩
  · right
    have hne : n ≠ IVLDPGID := by
      have := hsized.fits
      unfold IVLDPGID
      omega
    have henc := hsound hpresent n hlt hn
    cases hacq : pmAcquirePage x.vmm.pmm PAGE_TYPE_PAGE_STRUCT IVLDPGID with
    | mk m pmm =>
      rw [hacq] at hn hg
      obtain rfl : m = n := hn
      have hnr : pmm.nrPages = x.vmm.pmm.nrPages := hg.frame.2.1
      have haddr : krGetPhysicalPageAddress (setPmm x pmm).vmm.pmm m =
          krGetPhysicalPageAddress x.vmm.pmm m := krGetPhysicalPageAddress_congr hnr m
      have hflags : supportedFlags (setPmm x pmm) q = supportedFlags x q := rfl
      refine ⟨m, pmm, rfl, hne, hlt, hfree, hg, henc, ?_⟩
      dsimp only
      rw [if_neg hne, haddr, pteEncodeEntry_of_mask henc.aligned, hflags]
      dsimp only
      rw [entryAt_setEntryAt, if_neg henc.unmarked]
      rfl

theorem pteGetOrAcquirePageStruct_step {pContainer : Nat} (hsized : WellSized x.vmm.pmm)
    (htail : TailSet x.vmm.pmm) (hsound : StructSound x pContainer type index q psl) :
    ∃ s y, pteGetOrAcquirePageStruct x pContainer type index q psl = some (s, y) ∧
      StructStep x pContainer type index q psl s y := by
  cases hpresent : hasFlag (entryAt x pContainer index) PTE_PRESENT with
  | true =>
    rw [pteGetOrAcquirePageStruct, if_pos hpresent]
    exact ⟨_, _, rfl, .found hpresent⟩
  | false =>
    rcases pteGetOrAcquirePageStruct_absent hsized htail hsound hpresent with
      ⟨_, hcall⟩ | ⟨n, pmm, _, _, hlt, hfree, hg, henc, hcall⟩
    · exact ⟨_, _, hcall, .refused hpresent⟩
    · exact ⟨_, _, hcall, .hung n pmm hpresent hlt hfree hg henc⟩

theorem PagingOk.hungPage {n : Nat} {pmm : KrPhysmemmgmtState} (hok : PagingOk x root)
    (hd : p.length + (L + 1) = 4) (ha : descend slot x.tables 4 root p = some a) (ha64 : a < 2 ^ 64)
    (htype : TableType type L) (hq : FlagsOnly q)
    (hpresent : hasFlag (x.tables a (Fin.ofNat 512 index)) PTE_PRESENT = false)
    (hn : n < x.vmm.pmm.nrPages) (hfree : pageFree x.vmm.pmm n = true)
    (hg : Granted x.vmm.pmm [n] pmm)
    (hy : y = hungPage x pmm (krPhysToVirt a) index n
      (krMakeFlagsForPTEv2 type (supportedFlags x q) psl |||
        krGetPhysicalPageAddress x.vmm.pmm n)) :
    PagingOk y root ∧ (∀ r, walk slot y.tables 4 root r = walk slot x.tables 4 root r) ∧
      ∀ r b, descend slot y.tables 4 root r = some b ↔ descend slot x.tables 4 root r = some b ∨
        r = p ++ [Fin.ofNat 512 index] ∧ b = krGetPhysicalPageAddress x.vmm.pmm n := by
  obtain ⟨haligned, ht32⟩ := pageAddress_aligned x.vmm.pmm n
  have he := slot_encode_table psl (hq.supported (x := x)) htype haligned (ht32.trans (by decide))
  generalize krMakeFlagsForPTEv2 type (supportedFlags x q) psl |||
    krGetPhysicalPageAddress x.vmm.pmm n = e at *
  have htables : y.tables = Function.update (setEntry x.tables a (Fin.ofNat 512 index) e)
      (krGetPhysicalPageAddress x.vmm.pmm n) fun _ => 0 := by
    rw [hy, PTE.hungPage, zeroPage, krVirtToPhys_krPhysToVirt (ht32.trans (by decide)), setEntryAt,
      krVirtToPhys_krPhysToVirt ha64]
    rfl
  exact hok.hang hd ha (slot_absent hpresent) hn hfree hg he ⟨by rw [hy]; rfl, htables⟩

theorem pteGetOrAcquirePageStruct_spec (hok : PagingOk x root) (hd : p.length + (L + 1) = 4)
    (ha : descend slot x.tables 4 root p = some a) (ha64 : a < 2 ^ 64) (htype : TableType type L)
    (hq : FlagsOnly q) (hleaf : slot L (x.tables a (Fin.ofNat 512 index)) ≠ .leaf)
    (hcall : pteGetOrAcquirePageStruct x (krPhysToVirt a) type index q psl = some (s, y)) :
    StructKept x y root ∧ (s = 0 ∨ ∃ t < 2 ^ 52, s = krPhysToVirt t ∧
      descend slot y.tables 4 root (p ++ [Fin.ofNat 512 index]) = some t) ∧
      StructsGrown x y root := by
  have hentry : entryAt x (krPhysToVirt a) index = x.tables a (Fin.ofNat 512 index) := by
    rw [entryAt, krVirtToPhys_krPhysToVirt ha64]
  obtain ⟨s', y', hcall', hstep⟩ := pteGetOrAcquirePageStruct_step hok.sized hok.tail
    (TableType.sound (x := x) htype hq.lt (krPhysToVirt a) index)
  rw [hcall, Option.some.injEq, Prod.mk.injEq] at hcall'
  obtain ⟨rfl, rfl⟩ := hcall'
  cases hstep with
  | found hpresent =>
    rw [hentry] at hpresent ⊢
    refine ⟨⟨PagingOnly.refl, hok, fun _ => rfl⟩, Or.inr ⟨_, masked_lt _, rfl, ?_⟩,
      StructsGrown.refl⟩
    rw [← hd] at ha
    have hdesc := descend_eq_table ha (slot_table hpresent hleaf)
    rw [hd] at hdesc
    exact hdesc
  | refused _ => exact ⟨⟨PagingOnly.refl, hok, fun _ => rfl⟩, Or.inl rfl, StructsGrown.refl⟩
  | hung n pmm hpresent hn hfree hg _ =>
    rw [hentry] at hpresent
    obtain ⟨hok', hwalk, hdesc⟩ := hok.hungPage hd ha ha64 htype hq hpresent hn hfree hg rfl
    have h52 : krGetPhysicalPageAddress x.vmm.pmm n < 2 ^ 52 :=
      (pageAddress_aligned x.vmm.pmm n).2.trans (by decide)
    obtain ⟨hstage, hnr, _, hadvisory⟩ := hg.frame
    refine ⟨⟨⟨_, _, _, rfl⟩, hok', hwalk⟩,
      Or.inr ⟨_, h52, rfl, (hdesc _ _).mpr (Or.inr ⟨rfl, rfl⟩)⟩,
      hstage, hnr, hadvisory, fun k hk => (hg.bits k).mpr (Or.inl hk), fun q b hb => ?_⟩
    rcases (hdesc q b).mp hb with hold | ⟨_, rfl⟩
    · exact Or.inl hold
    · exact Or.inr ⟨n, hn, hfree, rfl⟩

end Ych.PTE
