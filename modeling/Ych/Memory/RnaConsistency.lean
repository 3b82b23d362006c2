import Mathlib.Order.Interval.Finset.Nat
import Ych.Base.BitSets
import Ych.Memory.RnaRun

/-! The meta slots of the region node allocator over acquisitions and releases: how long the root
page's bitmap and counter describe its nodes. -/
namespace Ych.Virtmemmgmt
open Words Bitmap BitSets Physmemmgmt Runs

inductive PmmUse where
  | acquire (out : Nat → Nat) (u pageType method hintID : Nat)
  | relinquish (pageID : Nat)
  | reserve (pageID : Nat)
  | hint (pageID : Nat)

def pmmUse (st : KrPhysmemmgmtState) : PmmUse → Option KrPhysmemmgmtState
  | .acquire out u pageType method hintID =>
    some (pmAcquirePages st out u pageType method hintID).state
  | .relinquish pageID => (pmRelinquishPage st pageID).map Prod.snd
  | .reserve pageID => some (krReservePhysicalPage st pageID).2
  | .hint pageID => some (krSetPhysicalPageAcquisitionHint st pageID).2

inductive RnaOp where
  | acquire
  | relinquish (pNode : Nat)
  | others (use : PmmUse)

abbrev RnaState := VmmState × List Nat

def rnaOp (s : RnaState) : RnaOp → Option RnaState
  | .acquire => (rnaAcquireNode s.1).map fun r => (r.2, if r.1 = 0 then s.2 else r.1 :: s.2)
  | .relinquish pNode =>
    (rnaRelinquishNode s.1 pNode).map fun r => (r.2, if r.1 then s.2.erase pNode else s.2)
  | .others use => (pmmUse s.1.pmm use).map fun pmm => ({ s.1 with pmm }, s.2)

inductive RnaListed (x : VmmState) : Nat → Prop where
  | root : RnaListed x x.rnaRootPageID
  | next (page : Nat) (h : RnaListed x page)
      (hne : (x.metas (rnaGetMetaSlotVptr x page)).next ≠ IVLDPGID) :
      RnaListed x (x.metas (rnaGetMetaSlotVptr x page)).next

structure MetaExact (s : RnaState) (page : Nat) (m : KrRnaMetaSlot) : Prop where
  count : m.nrSlots = m.bitmap.cpop.toNat
  self : m.bitmap.getLsbD 0 = true
  this : m.this = page
  slots : ∀ i, 1 ≤ i → i < 64 → (m.bitmap.getLsbD i = true ↔ rnaGetSlotVptr s.1 page i ∈ s.2)

def RnaExact (s : RnaState) : Prop :=
  ∀ page, RnaListed s.1 page → MetaExact s page (s.1.metas (rnaGetMetaSlotVptr s.1 page))

def InPage (x : VmmState) (page p : Nat) : Prop :=
  rnaGetMetaSlotVptr x page ≤ p ∧ p < rnaGetMetaSlotVptr x page + KR_PAGE_SIZE

/-- A node is acquired while fewer than 30 are live; of the pointers into the root page, only live
nodes are given back. -/
def RnaFine (s : RnaState) : RnaOp → Prop
  | .acquire => s.2.length < 30
  | .relinquish pNode => InPage s.1 s.1.rnaRootPageID pNode → pNode ∈ s.2
  | .others _ => True

/-- The live nodes are the slots `S` of the root page, and no other page exists. -/
structure RootSlots (S : Finset Nat) (s : RnaState) : Prop where
  low : S ⊆ Finset.Icc 1 30
  valid : krIsValidPageID s.1.pmm s.1.rnaRootPageID = true
  reserved : krIsPhysicalPageReserved s.1.pmm s.1.rnaRootPageID = true
  count : (s.1.metas (rnaGetMetaSlotVptr s.1 s.1.rnaRootPageID)).nrSlots = S.card + 1
  bitmap : bits (s.1.metas (rnaGetMetaSlotVptr s.1 s.1.rnaRootPageID)).bitmap = insert 0 S
  this : (s.1.metas (rnaGetMetaSlotVptr s.1 s.1.rnaRootPageID)).this = s.1.rnaRootPageID
  prev : (s.1.metas (rnaGetMetaSlotVptr s.1 s.1.rnaRootPageID)).prev = IVLDPGID
  next : (s.1.metas (rnaGetMetaSlotVptr s.1 s.1.rnaRootPageID)).next = IVLDPGID
  live : ∀ p, p ∈ s.2 ↔ ∃ i ∈ S, rnaGetSlotVptr s.1 s.1.rnaRootPageID i = p
  nodup : s.2.Nodup
  length : s.2.length = S.card

variable {s t : RnaState} {S : Finset Nat} {x y : VmmState} {page p i w : Nat} {op : RnaOp}

theorem pmmUse_step {st st' : KrPhysmemmgmtState} {use : PmmUse} (h : pmmUse st use = some st') :
    PmmStep st st' := by
  cases use with
  | acquire out u pageType method hintID =>
    obtain rfl := Option.some.inj h
    exact PmmStep.acquire st out u pageType method hintID
  | relinquish pageID =>
    obtain ⟨r, hr, rfl⟩ := Option.map_eq_some_iff.mp h
    exact PmmStep.relinquish st r.2 pageID r.1 hr
  | reserve pageID =>
    obtain rfl := Option.some.inj h
    exact PmmStep.reserve st pageID
  | hint pageID =>
    obtain rfl := Option.some.inj h
    exact PmmStep.hint st pageID

theorem rnaGetSlotVptr_add (x : VmmState) (page i : Nat) :
    rnaGetSlotVptr x page i = rnaGetMetaSlotVptr x page + i * RNA_SLOT_SIZE := by
  rw [rnaGetMetaSlotVptr, rnaGetSlotVptr, rnaGetSlotVptr, Nat.zero_mul, Nat.add_zero]

theorem slotVptr_inj : rnaGetSlotVptr x page i = rnaGetSlotVptr x page w ↔ i = w := by
  rw [rnaGetSlotVptr_add, rnaGetSlotVptr_add]
  unfold RNA_SLOT_SIZE
  omega

theorem ctzl_spec {b : BitVec 64} (h : ∃ i < 64, b.getLsbD i = true) :
    ctzl b < 64 ∧ b.getLsbD (ctzl b) = true ∧ ∀ i < ctzl b, b.getLsbD i = false := by
  obtain ⟨i, hi, hbit⟩ := h
  cases hfind : (List.range 64).find? fun i => b.getLsbD i with
  | none =>
    have hnone := List.find?_range_eq_none.mp hfind i hi
    rw [hbit] at hnone
    exact absurd hnone (by decide)
  | some w =>
    obtain ⟨hset, hmem, hbelow⟩ := List.find?_range_eq_some.mp hfind
    rw [ctzl, hfind, Option.getD_some]
    exact ⟨List.mem_range.mp hmem, hset, fun j hj => by simpa using hbelow j hj⟩

theorem bits_intBit : ∀ n < 32, bits (intBit n) = if n = 31 then Finset.Ico 31 64 else {n} := by
  decide +kernel

theorem RootSlots.listed (h : RootSlots S s) (hpage : RnaListed s.1 page) :
    page = s.1.rnaRootPageID := by
  induction hpage with
  | root => rfl
  | next page _ hne ih =>
    subst ih
    exact absurd h.next hne

theorem RootSlots.zero_notMem (h : RootSlots S s) : 0 ∉ S := fun hmem =>
  absurd (Finset.mem_Icc.mp (h.low hmem)).1 (by decide)

theorem RootSlots.slot_live (h : RootSlots S s) :
    rnaGetSlotVptr s.1 s.1.rnaRootPageID i ∈ s.2 ↔ i ∈ S := by
  rw [h.live]
  constructor
  · rintro ⟨j, hj, heq⟩
    rwa [← slotVptr_inj.mp heq]
  · exact fun hi => ⟨i, hi, rfl⟩

theorem RootSlots.exact (h : RootSlots S s) : RnaExact s := by
  intro page hpage
  obtain rfl := h.listed hpage
  refine ⟨?_, ?_, h.this, fun i hi _ => ?_⟩
  · rw [h.count, cpop_eq_card, h.bitmap, Finset.card_insert_of_notMem h.zero_notMem]
  · rw [← mem_bits, h.bitmap]
    exact Finset.mem_insert_self 0 S
  · rw [← mem_bits, h.bitmap, h.slot_live, Finset.mem_insert, or_iff_right (by omega)]

theorem mem_bits_not {b : BitVec 64} (hi : i < 64) : i ∈ bits (~~~b) ↔ i ∉ bits b := by
  rw [mem_bits, mem_bits, BitVec.getLsbD_not, Bool.and_eq_true, decide_eq_true_eq,
    and_iff_right hi, Bool.not_eq_true', Bool.not_eq_true]

theorem free_slot {b : BitVec 64} (hb : bits b = insert 0 S) (hlow : S ⊆ Finset.Icc 1 30) :
    1 ≤ ctzl (~~~b) ∧ ctzl (~~~b) ≤ 31 ∧ ctzl (~~~b) ∉ S ∧
      ∀ i, 1 ≤ i → i < ctzl (~~~b) → i ∈ S := by
  have hnot : ∀ i < 64, (~~~b).getLsbD i = true ↔ i ≠ 0 ∧ i ∉ S := by
    intro i hi
    rw [← mem_bits, mem_bits_not hi, hb, Finset.mem_insert, not_or]
  have htop : (31 : Nat) ∉ S := fun hmem => by
    have hle := (Finset.mem_Icc.mp (hlow hmem)).2
    omega
  have hfree : (~~~b).getLsbD 31 = true := (hnot 31 (by decide)).mpr ⟨by decide, htop⟩
  obtain ⟨hlt, hset, hbelow⟩ := ctzl_spec ⟨31, by decide, hfree⟩
  obtain ⟨hzero, hmem⟩ := (hnot _ hlt).mp hset
  refine ⟨Nat.one_le_iff_ne_zero.mpr hzero, ?_, hmem, fun i hi hiw => ?_⟩
  · by_contra hgt
    rw [hbelow 31 (by omega)] at hfree
    exact absurd hfree (by decide)
  · by_contra hout
    have hopen := (hnot i (by omega)).mpr ⟨by omega, hout⟩
    rw [hbelow i hiw] at hopen
    exact absurd hopen (by decide)

def nextSlot (s : RnaState) : Nat :=
  ctzl (~~~(s.1.metas (rnaGetMetaSlotVptr s.1 s.1.rnaRootPageID)).bitmap)

def takenMeta (s : RnaState) : KrRnaMetaSlot :=
  let m := s.1.metas (rnaGetMetaSlotVptr s.1 s.1.rnaRootPageID)
  { m with bitmap := m.bitmap ||| intBit (nextSlot s), nrSlots := (m.nrSlots + 1) % 256 }

theorem RootSlots.free (h : RootSlots S s) : 1 ≤ nextSlot s ∧ nextSlot s ≤ 31 ∧
    nextSlot s ∉ S ∧ ∀ i, 1 ≤ i → i < nextSlot s → i ∈ S := free_slot h.bitmap h.low

theorem RootSlots.acquire (h : RootSlots S s) : ∃ y,
    rnaOp s .acquire = some (y, rnaGetSlotVptr s.1 s.1.rnaRootPageID (nextSlot s) :: s.2) ∧
      y.pmm = s.1.pmm ∧ y.rnaRootPageID = s.1.rnaRootPageID ∧
      y.metas (rnaGetMetaSlotVptr s.1 s.1.rnaRootPageID) = takenMeta s := by
  obtain ⟨hpos, -⟩ := h.free
  have hopen : (s.1.metas (rnaGetMetaSlotVptr s.1 s.1.rnaRootPageID)).bitmap ≠
      BitVec.allOnes 64 := by
    intro hfull
    have htop : (31 : Nat) ∈ insert 0 S := by
      rw [← h.bitmap, hfull, mem_bits]
      rfl
    have hlow := h.low ((Finset.mem_insert.mp htop).resolve_left (by decide))
    exact absurd (Finset.mem_Icc.mp hlow).2 (by decide)
  have hptr : rnaGetMetaSlotVptr s.1 s.1.rnaRootPageID ≠ 0 := rnaGetSlotVptr_ne_zero _ 0
  have hnode : rnaAcquireNode s.1 =
      some (rnaTakeSlot s.1 (rnaGetMetaSlotVptr s.1 s.1.rnaRootPageID)) := by
    rw [rnaAcquireNode, rnaChoose_free (by decide) hopen]
    dsimp only
    rw [if_neg hptr]
  have hfirst : (rnaTakeSlot s.1 (rnaGetMetaSlotVptr s.1 s.1.rnaRootPageID)).1 =
      rnaGetSlotVptr s.1 s.1.rnaRootPageID (nextSlot s) := by
    rw [rnaTakeSlot, h.this]
    rfl
  refine ⟨(rnaTakeSlot s.1 (rnaGetMetaSlotVptr s.1 s.1.rnaRootPageID)).2, ?_, rfl, rfl, ?_⟩
  · rw [rnaOp, hnode, Option.map_some, if_neg (by rw [hfirst]; exact rnaGetSlotVptr_ne_zero _ _),
      hfirst]
  · have hpast : ¬(rnaGetSlotVptr s.1 s.1.rnaRootPageID (nextSlot s) ≤
        rnaGetMetaSlotVptr s.1 s.1.rnaRootPageID ∧ rnaGetMetaSlotVptr s.1 s.1.rnaRootPageID <
          rnaGetSlotVptr s.1 s.1.rnaRootPageID (nextSlot s) + SIZEOF_REGION) := by
      rw [rnaGetSlotVptr_add]
      unfold RNA_SLOT_SIZE
      omega
    have hthis : rnaGetSlotVptr s.1 (s.1.metas (rnaGetMetaSlotVptr s.1 s.1.rnaRootPageID)).this
        (nextSlot s) = rnaGetSlotVptr s.1 s.1.rnaRootPageID (nextSlot s) := by rw [h.this]
    rw [← hthis] at hpast
    exact (if_neg hpast).trans (Function.update_self _ _ _)

theorem rootVptr_congr (hsize : y.pmm.nrPages = x.pmm.nrPages)
    (hroot : y.rnaRootPageID = x.rnaRootPageID) :
    (∀ i, rnaGetSlotVptr y y.rnaRootPageID i = rnaGetSlotVptr x x.rnaRootPageID i) ∧
      rnaGetMetaSlotVptr y y.rnaRootPageID = rnaGetMetaSlotVptr x x.rnaRootPageID := by
  have hmeta : rnaGetMetaSlotVptr y y.rnaRootPageID = rnaGetMetaSlotVptr x x.rnaRootPageID := by
    rw [hroot]
    exact rnaGetMetaSlotVptr_congr hsize _
  refine ⟨fun i => ?_, hmeta⟩
  rw [rnaGetSlotVptr_add, rnaGetSlotVptr_add, hmeta]

theorem cons_live (h : RootSlots S s) (hw : w ∉ S) (p : Nat) :
    p ∈ rnaGetSlotVptr s.1 s.1.rnaRootPageID w :: s.2 ↔
      ∃ i ∈ insert w S, rnaGetSlotVptr s.1 s.1.rnaRootPageID i = p := by
  rw [List.mem_cons, h.live]
  constructor
  · rintro (rfl | ⟨i, hi, rfl⟩)
    · exact ⟨w, Finset.mem_insert_self w S, rfl⟩
    · exact ⟨i, Finset.mem_insert_of_mem hi, rfl⟩
  · rintro ⟨i, hi, rfl⟩
    obtain rfl | hi := Finset.mem_insert.mp hi
    · exact Or.inl rfl
    · exact Or.inr ⟨i, hi, rfl⟩

theorem RootSlots.acquire_low (h : RootSlots S s) (hroom : s.2.length < 30)
    (hstep : rnaOp s .acquire = some t) : ∃ S', RootSlots S' t := by
  obtain ⟨hpos, hle, hfresh, hbelow⟩ := h.free
  obtain ⟨y, hop, hpmm, hroot, hmeta⟩ := h.acquire
  obtain rfl := Option.some.inj (hop.symm.trans hstep)
  have hw : nextSlot s ≤ 30 := by
    by_contra hgt
    have hall : Finset.Icc 1 30 ⊆ S := fun i hi => by
      obtain ⟨h1, h30⟩ := Finset.mem_Icc.mp hi
      exact hbelow i h1 (by omega)
    have hcard := Finset.card_le_card hall
    rw [Nat.card_Icc, ← h.length] at hcard
    omega
  obtain ⟨hslot, hptr⟩ := rootVptr_congr (congrArg _ hpmm) hroot
  have hcount : S.card ≤ 30 := by
    rw [← h.length]
    omega
  have hbits : bits (intBit (nextSlot s)) = {nextSlot s} := by
    rw [bits_intBit _ (by omega), if_neg (by omega)]
  have hnotmem : rnaGetSlotVptr s.1 s.1.rnaRootPageID (nextSlot s) ∉ s.2 :=
    fun hmem => hfresh (h.slot_live.mp hmem)
  refine ⟨insert (nextSlot s) S, ?_, ?_, ?_, ?_, ?_, ?_, ?_, ?_, fun p => ?_, ?_, ?_⟩
  · exact Finset.insert_subset (Finset.mem_Icc.mpr ⟨hpos, hw⟩) h.low
  · dsimp only
    rw [hpmm, hroot]
    exact h.valid
  · dsimp only
    rw [hpmm, hroot]
    exact h.reserved
  · dsimp only
    rw [hptr, hmeta, takenMeta, h.count, Finset.card_insert_of_notMem hfresh]
    exact Nat.mod_eq_of_lt (by omega)
  · dsimp only
    rw [hptr, hmeta, takenMeta, bits_or, h.bitmap, hbits, Finset.insert_union, Finset.union_comm]
    rfl
  · dsimp only
    rw [hptr, hmeta, hroot]
    exact h.this
  · dsimp only
    rw [hptr, hmeta]
    exact h.prev
  · dsimp only
    rw [hptr, hmeta]
    exact h.next
  · dsimp only
    simp only [hslot]
    exact cons_live h hfresh p
  · exact List.nodup_cons.mpr ⟨hnotmem, h.nodup⟩
  · rw [List.length_cons, h.length, Finset.card_insert_of_notMem hfresh]

/-- Slot 31 marks the whole upper half. -/
theorem RootSlots.acquire_high (h : RootSlots S s) (hfull : ¬s.2.length < 30)
    (hstep : rnaOp s .acquire = some t) : ¬RnaExact t := by
  obtain ⟨hpos, hle, hfresh, hbelow⟩ := h.free
  obtain ⟨y, hop, hpmm, hroot, hmeta⟩ := h.acquire
  obtain rfl := Option.some.inj (hop.symm.trans hstep)
  have hall : S = Finset.Icc 1 30 := by
    refine Finset.eq_of_subset_of_card_le h.low ?_
    rw [Nat.card_Icc, ← h.length]
    omega
  have hw : nextSlot s = 31 := by
    by_contra hne
    refine hfresh ?_
    rw [hall, Finset.mem_Icc]
    exact ⟨hpos, by omega⟩
  obtain ⟨hslot, hptr⟩ := rootVptr_congr (congrArg _ hpmm) hroot
  intro hexact
  have hslots := (hexact _ RnaListed.root).slots 32 (by decide) (by decide)
  dsimp only at hslots
  rw [hptr, hmeta, hslot, cons_live h hfresh, ← mem_bits, takenMeta, bits_or, hw,
    bits_intBit 31 (by decide), if_pos rfl] at hslots
  obtain ⟨i, hi, heq⟩ := hslots.mp (Finset.mem_union_right _ (by decide))
  rw [slotVptr_inj] at heq
  subst heq
  rw [Finset.mem_insert, hall] at hi
  obtain h31 | hmem := hi
  · exact absurd h31 (by decide)
  · exact absurd (Finset.mem_Icc.mp hmem).2 (by decide)

def slotOf (s : RnaState) (p : Nat) : Nat :=
  (p - rnaGetMetaSlotVptr s.1 s.1.rnaRootPageID) / RNA_SLOT_SIZE % 256

def leftMeta (s : RnaState) (p : Nat) : KrRnaMetaSlot :=
  let m := s.1.metas (rnaGetMetaSlotVptr s.1 s.1.rnaRootPageID)
  { m with bitmap := m.bitmap &&& ~~~intBit (slotOf s p), nrSlots := (m.nrSlots + 255) % 256 }

theorem rnaUnlink_alone (hprev : (x.metas p).prev = IVLDPGID) (hnext : (x.metas p).next = IVLDPGID) :
    rnaUnlink x p = x := by
  have hfirst : rnaSetNext x (x.metas p).prev (x.metas p).next = x := if_neg (not_not.mpr hprev)
  rw [rnaUnlink, hfirst]
  exact if_neg (not_not.mpr hnext)

theorem rnaFindPage_here {fuel : Nat} (hf : 0 < fuel) (hin : InPage x page p) :
    rnaFindPage x p fuel page = some page := by
  cases fuel with
  | zero => exact absurd hf (by decide)
  | succ fuel =>
    rw [rnaFindPage]
    exact if_pos hin

theorem rnaFindPage_end {fuel : Nat} (hf : 0 < fuel) (hout : ¬InPage x page p)
    (hnext : (x.metas (rnaGetMetaSlotVptr x page)).next = IVLDPGID) :
    rnaFindPage x p fuel page = some IVLDPGID := by
  cases fuel with
  | zero => exact absurd hf (by decide)
  | succ fuel =>
    rw [rnaFindPage]
    exact (if_neg hout).trans (if_pos hnext)

theorem RootSlots.refuse (h : RootSlots S s) (hout : ¬InPage s.1 s.1.rnaRootPageID p) :
    rnaOp s (.relinquish p) = some s := by
  rw [rnaOp, rnaRelinquishNode, rnaFindPage_end (by decide) hout h.next]
  dsimp only
  rw [if_pos rfl]
  rfl

theorem RootSlots.relinquish (h : RootSlots S s) (hin : InPage s.1 s.1.rnaRootPageID p) :
    rnaOp s (.relinquish p) = some (setMeta s.1 (rnaGetMetaSlotVptr s.1 s.1.rnaRootPageID)
      (leftMeta s p), s.2.erase p) := by
  have hroot : s.1.rnaRootPageID ≠ IVLDPGID := (krIsValidPageID_iff.mp h.valid).1
  have hclear : rnaClearSlot s.1 (rnaGetMetaSlotVptr s.1 s.1.rnaRootPageID) (slotOf s p) =
      setMeta s.1 (rnaGetMetaSlotVptr s.1 s.1.rnaRootPageID) (leftMeta s p) := rfl
  have hmeta : (setMeta s.1 (rnaGetMetaSlotVptr s.1 s.1.rnaRootPageID) (leftMeta s p)).metas
      (rnaGetMetaSlotVptr s.1 s.1.rnaRootPageID) = leftMeta s p := Function.update_self _ _ _
  have hunlink := rnaUnlink_alone (x := setMeta s.1 (rnaGetMetaSlotVptr s.1 s.1.rnaRootPageID)
    (leftMeta s p)) (p := rnaGetMetaSlotVptr s.1 s.1.rnaRootPageID)
    (by rw [hmeta]; exact h.prev) (by rw [hmeta]; exact h.next)
  have hkept : pmRelinquishPage s.1.pmm s.1.rnaRootPageID = some (false, s.1.pmm) := by
    rw [pmRelinquishPage, if_pos h.reserved]
  have hthis : (leftMeta s p).this = s.1.rnaRootPageID := h.this
  have hslot : rnaRelinquishSlot s.1 (rnaGetMetaSlotVptr s.1 s.1.rnaRootPageID) (slotOf s p) =
      some (true, setMeta s.1 (rnaGetMetaSlotVptr s.1 s.1.rnaRootPageID) (leftMeta s p)) := by
    rw [rnaRelinquishSlot, hclear, hunlink, ite_self, hmeta, hthis]
    exact congrArg (Option.map _) hkept
  rw [rnaOp, rnaRelinquishNode, rnaFindPage_here (by decide) hin]
  dsimp only
  rw [if_neg hroot]
  exact congrArg (Option.map _) hslot

theorem RootSlots.slotOf_live (h : RootSlots S s) (hi : i ∈ S) :
    slotOf s (rnaGetSlotVptr s.1 s.1.rnaRootPageID i) = i ∧
      InPage s.1 s.1.rnaRootPageID (rnaGetSlotVptr s.1 s.1.rnaRootPageID i) := by
  have hle := (Finset.mem_Icc.mp (h.low hi)).2
  unfold InPage slotOf
  rw [rnaGetSlotVptr_add]
  unfold RNA_SLOT_SIZE KR_PAGE_SIZE
  omega

theorem RootSlots.leave (h : RootSlots S s) (hi : i ∈ S) :
    RootSlots (S.erase i) (setMeta s.1 (rnaGetMetaSlotVptr s.1 s.1.rnaRootPageID)
      (leftMeta s (rnaGetSlotVptr s.1 s.1.rnaRootPageID i)),
        s.2.erase (rnaGetSlotVptr s.1 s.1.rnaRootPageID i)) := by
  obtain ⟨h1, h30⟩ := Finset.mem_Icc.mp (h.low hi)
  have hslot := (h.slotOf_live hi).1
  have hpos := Finset.card_pos.mpr ⟨i, hi⟩
  have hcard := Finset.card_le_card h.low
  rw [Nat.card_Icc] at hcard
  have hmeta : (setMeta s.1 (rnaGetMetaSlotVptr s.1 s.1.rnaRootPageID)
      (leftMeta s (rnaGetSlotVptr s.1 s.1.rnaRootPageID i))).metas
        (rnaGetMetaSlotVptr s.1 s.1.rnaRootPageID) =
      leftMeta s (rnaGetSlotVptr s.1 s.1.rnaRootPageID i) := Function.update_self _ _ _
  have hbits : bits (intBit i) = {i} := by
    rw [bits_intBit _ (by omega), if_neg (by omega)]
  refine ⟨(Finset.erase_subset i S).trans h.low, h.valid, h.reserved, ?_, ?_, ?_, ?_, ?_,
    fun p => ?_, h.nodup.erase _, ?_⟩
  · refine (congrArg _ hmeta).trans ?_
    rw [leftMeta, h.count, Finset.card_erase_of_mem hi]
    dsimp only
    omega
  · refine (congrArg (fun m => bits (KrRnaMetaSlot.bitmap m)) hmeta).trans ?_
    rw [leftMeta, bits_and_not, h.bitmap, hslot, hbits, Finset.sdiff_singleton_eq_erase,
      Finset.erase_insert_of_ne (by omega)]
  · exact (congrArg _ hmeta).trans h.this
  · exact (congrArg _ hmeta).trans h.prev
  · exact (congrArg _ hmeta).trans h.next
  · have hptr : ∀ j, rnaGetSlotVptr (setMeta s.1 (rnaGetMetaSlotVptr s.1 s.1.rnaRootPageID)
        (leftMeta s (rnaGetSlotVptr s.1 s.1.rnaRootPageID i))) s.1.rnaRootPageID j =
          rnaGetSlotVptr s.1 s.1.rnaRootPageID j := fun j => rfl
    dsimp only
    rw [h.nodup.mem_erase_iff, h.live]
    constructor
    · rintro ⟨hne, j, hj, rfl⟩
      exact ⟨j, Finset.mem_erase.mpr ⟨fun heq => hne (by rw [heq]), hj⟩, hptr j⟩
    · rintro ⟨j, hj, rfl⟩
      obtain ⟨hne, hj⟩ := Finset.mem_erase.mp hj
      exact ⟨fun heq => hne (slotVptr_inj.mp heq), j, hj, rfl⟩
  · rw [List.length_erase_of_mem ((h.live _).mpr ⟨i, hi, rfl⟩), h.length,
      Finset.card_erase_of_mem hi]

theorem RootSlots.stray (h : RootSlots S s) (hdead : p ∉ s.2) :
    ¬RnaExact (setMeta s.1 (rnaGetMetaSlotVptr s.1 s.1.rnaRootPageID) (leftMeta s p),
      s.2.erase p) := by
  intro hexact
  have hcard := Finset.card_le_card h.low
  rw [Nat.card_Icc] at hcard
  have hmeta : (setMeta s.1 (rnaGetMetaSlotVptr s.1 s.1.rnaRootPageID) (leftMeta s p)).metas
      (rnaGetMetaSlotVptr s.1 s.1.rnaRootPageID) = leftMeta s p := Function.update_self _ _ _
  have hroot := hexact _ RnaListed.root
  have hgoal : MetaExact (setMeta s.1 (rnaGetMetaSlotVptr s.1 s.1.rnaRootPageID) (leftMeta s p),
      s.2.erase p) s.1.rnaRootPageID (leftMeta s p) :=
    Eq.mp (congrArg (MetaExact _ _) hmeta) hroot
  have hbits : bits (leftMeta s p).bitmap = insert 0 S := by
    ext j
    by_cases hj : j < 64
    · by_cases hzero : j = 0
      · subst hzero
        exact iff_of_true (mem_bits.mpr hgoal.self) (Finset.mem_insert_self 0 S)
      · have hslot := hgoal.slots j (by omega) hj
        rw [List.erase_of_not_mem hdead] at hslot
        rw [mem_bits, hslot, Finset.mem_insert, or_iff_right hzero]
        exact h.slot_live
    · refine iff_of_false (fun hmem => hj ?_) (fun hmem => hj ?_)
      · exact Finset.mem_range.mp (bits_subset _ hmem)
      · obtain rfl | hmem := Finset.mem_insert.mp hmem
        · decide
        · have hle := (Finset.mem_Icc.mp (h.low hmem)).2
          omega
  have hcount := hgoal.count
  have hleft : (leftMeta s p).nrSlots = S.card := by
    rw [leftMeta, h.count]
    dsimp only
    omega
  rw [cpop_eq_card, hbits, Finset.card_insert_of_notMem h.zero_notMem, hleft] at hcount
  omega

theorem RootSlots.others (h : RootSlots S s) {pmm : KrPhysmemmgmtState} (hpmm : PmmStep s.1.pmm pmm) :
    RootSlots S ({ s.1 with pmm }, s.2) := by
  obtain ⟨hslot, hptr⟩ := rootVptr_congr (x := s.1) (y := { s.1 with pmm }) hpmm.sameSize.1 rfl
  have hvalid := h.valid
  simp only [krIsValidPageID, ← hpmm.sameSize.1] at hvalid
  refine ⟨h.low, ?_, hpmm.reserved h.reserved, ?_, ?_, ?_, ?_, ?_, fun p => ?_, h.nodup, h.length⟩
  · simp only [krIsValidPageID]
    exact hvalid
  · exact (congrArg (fun q => (s.1.metas q).nrSlots) hptr).trans h.count
  · exact (congrArg (fun q => bits (s.1.metas q).bitmap) hptr).trans h.bitmap
  · exact (congrArg (fun q => (s.1.metas q).this) hptr).trans h.this
  · exact (congrArg (fun q => (s.1.metas q).prev) hptr).trans h.prev
  · exact (congrArg (fun q => (s.1.metas q).next) hptr).trans h.next
  · simp only [hslot]
    exact h.live p

theorem RootSlots.step (h : RootSlots S s) (hstep : rnaOp s op = some t) :
    (RnaExact t ↔ RnaFine s op) ∧ (RnaFine s op → ∃ S', RootSlots S' t) := by
  have hkeep : RnaFine s op → ∃ S', RootSlots S' t := by
    intro hfine
    cases op with
    | acquire => exact h.acquire_low hfine hstep
    | relinquish p =>
      by_cases hin : InPage s.1 s.1.rnaRootPageID p
      · obtain ⟨i, hi, rfl⟩ := (h.live p).mp (hfine hin)
        obtain rfl := Option.some.inj ((h.relinquish hin).symm.trans hstep)
        exact ⟨_, h.leave hi⟩
      · obtain rfl := Option.some.inj ((h.refuse hin).symm.trans hstep)
        exact ⟨S, h⟩
    | others use =>
      obtain ⟨pmm, hpmm, rfl⟩ := Option.map_eq_some_iff.mp hstep
      exact ⟨S, h.others (pmmUse_step hpmm)⟩
  refine ⟨⟨fun hexact => ?_, fun hfine => ?_⟩, hkeep⟩
  · cases op with
    | acquire =>
      by_contra hfull
      exact h.acquire_high hfull hstep hexact
    | relinquish p =>
      intro hin
      by_contra hdead
      obtain rfl := Option.some.inj ((h.relinquish hin).symm.trans hstep)
      exact h.stray hdead hexact
    | others use => trivial
  · obtain ⟨S', h'⟩ := hkeep hfine
    exact h'.exact

theorem krReservePhysicalPage_taken {st : KrPhysmemmgmtState} (hvalid : krIsValidPageID st page = true)
    (htaken : bit st.pPrimaryBitmap page = true) :
    krIsPhysicalPageReserved (krReservePhysicalPage st page).2 page = true := by
  rw [krReservePhysicalPage, hvalid, htaken]
  change (krIsValidPageID st page && bit (Function.update st.pAdvisoryBitmap (page / 8)
    (markBit (st.pAdvisoryBitmap (page / 8)) (page % 8) true)) page) = true
  rw [hvalid, Bool.true_and, bit_update_markBit, if_pos rfl]

theorem rnaInit_reserved {x₀ : VmmState} (hs : WellSized x₀.pmm) (ht : TailSet x₀.pmm)
    (hinit : rnaInit x₀ = (true, x)) :
    krIsPhysicalPageReserved x.pmm x.rnaRootPageID = true := by
  unfold rnaInit at hinit
  split at hinit
  · exact absurd (congrArg Prod.fst hinit) Bool.false_ne_true
  · dsimp only at hinit
    split at hinit
    · exact absurd (congrArg Prod.fst hinit) Bool.false_ne_true
    · rename_i hid
      obtain rfl := (Prod.mk.inj hinit).2
      rcases pmAcquirePage_cases hs ht PAGE_TYPE_RNA IVLDPGID with hnone | ⟨p, hp, hlt, -, hgrant⟩
      · exact absurd (congrArg Prod.fst hnone) hid
      · obtain ⟨-, hpages, -, -⟩ := hgrant.frame
        refine krReservePhysicalPage_taken (krIsValidPageID_iff.mpr ⟨hid, ?_⟩) ?_
        · dsimp only [setMeta, krtlContiguousZeroBuffer]
          rw [hp, hpages]
          exact hlt
        · rw [hp]
          exact (hgrant.bits p).mpr (Or.inr (List.mem_singleton_self p))

theorem RootFilling.rootSlots (h : RootFilling x.rnaRootPageID 0 x)
    (hreserved : krIsPhysicalPageReserved x.pmm x.rnaRootPageID = true) :
    RootSlots ∅ (x, []) := by
  refine ⟨Finset.empty_subset _, h.valid, hreserved, ?_, ?_, ?_, ?_, ?_, fun p => ?_,
    List.nodup_nil, rfl⟩
  · exact congrArg _ h.rootMeta
  · have hfirst : bits (occupied 0) = insert 0 ∅ := by decide +kernel
    exact (congrArg (fun m => bits (KrRnaMetaSlot.bitmap m)) h.rootMeta).trans hfirst
  · exact congrArg _ h.rootMeta
  · exact congrArg _ h.rootMeta
  · exact congrArg _ h.rootMeta
  · simp

/-- The meta slots describe the nodes throughout exactly if no node is acquired while 30 are live
and none is given back that is not live. -/
theorem rnaExact_iff {x₀ : VmmState} (hs : WellSized x₀.pmm) (ht : TailSet x₀.pmm)
    (hpages : x₀.rnaPages = []) (hinit : rnaInit x₀ = (true, x)) (ops : List RnaOp) :
    Throughout rnaOp RnaExact (x, []) ops ↔ EachStep rnaOp RnaFine (x, []) ops := by
  have hroot := (rnaInit_spec hs ht hpages hinit).1.rootSlots (rnaInit_reserved hs ht hinit)
  exact throughout_iff_eachStep (I := fun s => ∃ S, RootSlots S s)
    (fun _ ⟨_, h⟩ => h.exact) (fun _ _ _ ⟨_, h⟩ hstep => h.step hstep) ⟨∅, hroot⟩ ops

theorem rootSlots_smallRna : RootSlots ∅ (smallRna, []) := by
  have hroot := (rnaInit_spec smallVmm_sized smallVmm_tailSet smallVmm_pages rnaInit_smallVmm).1
  exact hroot.rootSlots (rnaInit_reserved smallVmm_sized smallVmm_tailSet rnaInit_smallVmm)

theorem RootSlots.turn (h : RootSlots S s) (hroom : s.2.length < 30) :
    EachStep rnaOp RnaFine s [.acquire,
      .relinquish (rnaGetSlotVptr s.1 s.1.rnaRootPageID (nextSlot s))] := by
  refine eachStep_cons.mpr fun t ht => ⟨hroom, eachStep_cons.mpr fun _ _ => ⟨?_, eachStep_nil⟩⟩
  obtain ⟨y, hop, -⟩ := h.acquire
  obtain rfl := Option.some.inj (hop.symm.trans ht)
  intro _
  exact List.mem_cons_self

theorem rnaExact_iff_smallRna :
    ∃ node, Throughout rnaOp RnaExact (smallRna, []) [.acquire, .relinquish node] :=
  ⟨_, (rnaExact_iff smallVmm_sized smallVmm_tailSet smallVmm_pages rnaInit_smallVmm _).mpr
    (rootSlots_smallRna.turn (Nat.succ_pos 29))⟩

theorem RootSlots.acquisitions {n : Nat} (h : RootSlots S s) (hn : s.2.length + n ≤ 30) :
    ∃ t S', drive rnaOp s (List.replicate n .acquire) = some t ∧ RootSlots S' t ∧
      t.2.length = s.2.length + n := by
  induction n generalizing s S with
  | zero => exact ⟨s, S, rfl, h, rfl⟩
  | succ n ih =>
    obtain ⟨y, hop, -⟩ := h.acquire
    obtain ⟨S', h'⟩ := h.acquire_low (by omega) hop
    obtain ⟨t, S'', hrun, h'', hlen⟩ := ih h' (by rw [List.length_cons]; omega)
    refine ⟨t, S'', (drive_cons hop).trans hrun, h'', ?_⟩
    rw [hlen, List.length_cons]
    omega

/-- The 31st node: bits 31 to 63 are set, and the counter is 32. -/
theorem upper_half_marked :
    ¬Throughout rnaOp RnaExact (smallRna, []) (List.replicate 30 .acquire ++ [.acquire]) := by
  intro h
  obtain ⟨t, S, hrun, hslots, hlen⟩ := rootSlots_smallRna.acquisitions (n := 30) (by decide)
  obtain ⟨y, hop, -⟩ := hslots.acquire
  have hfull : ¬t.2.length < 30 := by
    rw [hlen]
    decide
  refine hslots.acquire_high hfull hop (h _ [] _ (List.append_nil _).symm ?_)
  rw [drive, List.foldlM_append]
  exact (congrArg (Option.bind · _) hrun).trans (drive_cons hop)

end Ych.Virtmemmgmt
