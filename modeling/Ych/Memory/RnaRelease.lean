import Ych.Base.Links
import Ych.Memory.RnaConsistency

/-! Giving a region node back: the slot, the list of pages and the physical memory manager, in any
consistent state of the allocator. -/
namespace Ych.Virtmemmgmt
open Words Bitmap BitSets Links Physmemmgmt

def rnaPrev (x : VmmState) (page : Nat) : Nat := (x.metas (rnaGetMetaSlotVptr x page)).prev

def rnaNext (x : VmmState) (page : Nat) : Nat := (x.metas (rnaGetMetaSlotVptr x page)).next

/-- The meta slot of a page whose live nodes are the slots `S`. -/
structure MetaOf (page : Nat) (S : Finset Nat) (m : KrRnaMetaSlot) : Prop where
  slots : S ⊆ Finset.Icc 1 63
  bitmap : bits m.bitmap = insert 0 S
  count : m.nrSlots = S.card + 1
  this : m.this = page

structure PageHeld (st : KrPhysmemmgmtState) (page : Nat) : Prop where
  taken : bit st.pPrimaryBitmap page = true
  unreserved : krIsPhysicalPageReserved st page = false
  counted : st.initStage = .bookkeeping →
    (st.pageMeta page).refCount = 1 ∧ hasFlag (st.pageMeta page).flags PAGE_FLAG_PINNED = false

/-- The list of pages, the root first, with the live slots of each. -/
structure RnaConsistent (x : VmmState) (pages : List Nat) (slots : Nat → Finset Nat) : Prop where
  root : pages.head? = some x.rnaRootPageID
  linked : Linked (rnaPrev x) (rnaNext x) IVLDPGID pages IVLDPGID
  apart : (pages.map (rnaGetMetaSlotVptr x)).Nodup
  valid : ∀ q ∈ pages, krIsValidPageID x.pmm q = true
  metas : ∀ q ∈ pages, MetaOf q (slots q) (x.metas (rnaGetMetaSlotVptr x q))
  sized : WellSized x.pmm
  reserved : krIsPhysicalPageReserved x.pmm x.rnaRootPageID = true
  held : ∀ q ∈ pages, q ≠ x.rnaRootPageID → PageHeld x.pmm q

def freedSlots (slots : Nat → Finset Nat) (q w : Nat) : Nat → Finset Nat :=
  Function.update slots q ((slots q).erase w)

def LastNode (x : VmmState) (slots : Nat → Finset Nat) (q w : Nat) : Prop :=
  q ≠ x.rnaRootPageID ∧ slots q = {w}

instance (x : VmmState) (slots : Nat → Finset Nat) (q w : Nat) : Decidable (LastNode x slots q w) :=
  inferInstanceAs (Decidable (_ ∧ _))

/-- The call succeeds; the slot is free, and nothing else changes but that the page of a last node
is unlinked and given back. -/
structure SlotReleased (x y : VmmState) (pages : List Nat) (slots : Nat → Finset Nat) (q w : Nat) :
    Prop where
  consistent : RnaConsistent y (if LastNode x slots q w then pages.erase q else pages)
    (freedSlots slots q w)
  returned : ∀ p, bit x.pmm.pPrimaryBitmap p = true ∧ bit y.pmm.pPrimaryBitmap p = false ↔
    p = q ∧ LastNode x slots q w

def NodeReleased (x : VmmState) (pages : List Nat) (slots : Nat → Finset Nat) (q w : Nat) : Prop :=
  ∃ y, rnaRelinquishNode x (rnaGetSlotVptr x q w) = some (true, y) ∧ SlotReleased x y pages slots q w

/-- The shift clears the bit of slot `w` and no other that is in use. -/
def ClearsOne (w : Nat) (S : Finset Nat) : Prop :=
  w ≤ 30 ∨ (w = 31 ∨ w = 63) ∧ ∀ i ∈ S, 31 ≤ i → i = w

variable {x y : VmmState} {pages l r mid : List Nat} {slots : Nat → Finset Nat} {S : Finset Nat}
  {q w p fuel : Nat} {st : KrPhysmemmgmtState}

theorem clearsOne_iff (hS : S ⊆ Finset.Icc 1 63) (hw : w ∈ S) :
    insert 0 S \ bits (intBit w) = insert 0 (S.erase w) ↔ ClearsOne w S := by
  obtain ⟨hpos, hle⟩ := Finset.mem_Icc.mp (hS hw)
  have hmod : intBit w = intBit (w % 32) := by rw [intBit, intBit, Nat.mod_mod]
  rw [hmod, bits_intBit _ (Nat.mod_lt w (by decide))]
  by_cases htop : w % 32 = 31
  · rw [if_pos htop]
    constructor
    · refine fun h => Or.inr ⟨by omega, fun i hi hi31 => ?_⟩
      by_contra hne
      have hmem : i ∈ insert 0 (S.erase w) :=
        Finset.mem_insert_of_mem (Finset.mem_erase.mpr ⟨hne, hi⟩)
      rw [← h, Finset.mem_sdiff, Finset.mem_Ico] at hmem
      have hbound := (Finset.mem_Icc.mp (hS hi)).2
      omega
    · intro h
      have halone := (h.resolve_left (by omega)).2
      ext i
      rw [Finset.mem_sdiff, Finset.mem_insert, Finset.mem_insert, Finset.mem_erase,
        Finset.mem_Ico]
      constructor
      · rintro ⟨rfl | hi, hout⟩
        · exact Or.inl rfl
        · have hbound := (Finset.mem_Icc.mp (hS hi)).2
          exact Or.inr ⟨by omega, hi⟩
      · rintro (rfl | ⟨hne, hi⟩)
        · exact ⟨Or.inl rfl, by omega⟩
        · exact ⟨Or.inr hi, fun hin => hne (halone i hi hin.1)⟩
  · rw [if_neg htop]
    by_cases hlow : w < 32
    · have hself : w % 32 = w := Nat.mod_eq_of_lt hlow
      rw [hself, Finset.sdiff_singleton_eq_erase, Finset.erase_insert_of_ne (by omega)]
      exact iff_of_true rfl (Or.inl (by omega))
    · refine iff_of_false (fun h => ?_) (fun h => ?_)
      · have hmem : w ∈ insert 0 S \ {w % 32} := by
          rw [Finset.mem_sdiff, Finset.mem_singleton]
          exact ⟨Finset.mem_insert_of_mem hw, by omega⟩
        rw [h, Finset.mem_insert, Finset.mem_erase] at hmem
        omega
      · obtain hw30 | ⟨hw31, -⟩ := h
        · omega
        · omega

theorem slot_inPage (x : VmmState) (hw : w < 64) : InPage x q (rnaGetSlotVptr x q w) := by
  unfold InPage
  rw [rnaGetSlotVptr_add]
  unfold RNA_SLOT_SIZE KR_PAGE_SIZE
  omega

theorem metaSlotVptr_aligned (x : VmmState) (q : Nat) :
    KR_PAGE_SIZE ∣ rnaGetMetaSlotVptr x q := by
  have haddr : krGetPhysicalPageAddress x.pmm q < 2 ^ 32 ∧
      KR_PAGE_SIZE ∣ krGetPhysicalPageAddress x.pmm q := by
    unfold krGetPhysicalPageAddress
    split
    · exact ⟨by decide, dvd_zero _⟩
    · refine ⟨wrap32_lt _, (Nat.dvd_mod_iff ?_).mpr (Dvd.intro_left q rfl)⟩
      decide
  rw [rnaGetMetaSlotVptr, rnaGetSlotVptr, krPhysToVirt_of_lt haddr.1, Nat.zero_mul, Nat.add_zero]
  exact Nat.dvd_add (by decide) haddr.2

theorem slot_not_inPage (hw : w < 64) (hne : rnaGetMetaSlotVptr x p ≠ rnaGetMetaSlotVptr x q) :
    ¬InPage x p (rnaGetSlotVptr x q w) := by
  obtain ⟨a, ha⟩ := metaSlotVptr_aligned x p
  obtain ⟨b, hb⟩ := metaSlotVptr_aligned x q
  unfold InPage
  rw [rnaGetSlotVptr_add, ha, hb]
  rw [ha, hb] at hne
  unfold RNA_SLOT_SIZE KR_PAGE_SIZE at *
  omega

theorem rnaFindPage_walk {b : Nat}
    (hlinked : Linked (rnaPrev x) (rnaNext x) b (l ++ q :: r) IVLDPGID)
    (hvalid : ∀ p ∈ l ++ q :: r, p ≠ IVLDPGID)
    (hapart : ∀ p ∈ l, rnaGetMetaSlotVptr x p ≠ rnaGetMetaSlotVptr x q) (hw : w < 64)
    (hfuel : l.length < fuel) :
    rnaFindPage x (rnaGetSlotVptr x q w) fuel ((l ++ q :: r).headD IVLDPGID) = some q := by
  induction l generalizing b fuel with
  | nil => exact rnaFindPage_here hfuel (slot_inPage x hw)
  | cons p l ih =>
    cases fuel with
    | zero => exact absurd hfuel (Nat.not_lt_zero _)
    | succ fuel =>
      obtain ⟨-, hnext, hrest⟩ := hlinked
      have hout := slot_not_inPage hw (hapart p List.mem_cons_self)
      have hmore : (l ++ q :: r).headD IVLDPGID ≠ IVLDPGID :=
        hvalid _ (List.mem_cons_of_mem p (headD_mem (by simp)))
      have hfound := ih hrest (fun p' hp => hvalid p' (List.mem_cons_of_mem p hp))
        (fun p' hp => hapart p' (List.mem_cons_of_mem p hp)) (Nat.lt_of_succ_lt_succ hfuel)
      have hnext' : (x.metas (rnaGetMetaSlotVptr x p)).next = (l ++ q :: r).headD IVLDPGID := hnext
      rw [List.cons_append, List.headD_cons, rnaFindPage]
      refine (if_neg hout).trans ?_
      rw [hnext', if_neg hmore]
      exact hfound

theorem RnaConsistent.apart_of_ne (h : RnaConsistent x pages slots) (hp : p ∈ pages)
    (hq : q ∈ pages) (hne : p ≠ q) : rnaGetMetaSlotVptr x p ≠ rnaGetMetaSlotVptr x q :=
  fun heq => hne (List.inj_on_of_nodup_map h.apart hp hq heq)

theorem RnaConsistent.ne_ivldpgid (h : RnaConsistent x pages slots) (hp : p ∈ pages) :
    p ≠ IVLDPGID := (krIsValidPageID_iff.mp (h.valid p hp)).1

theorem RnaConsistent.nodup (h : RnaConsistent x pages slots) : pages.Nodup :=
  List.Nodup.of_map _ h.apart

theorem RnaConsistent.length_le (h : RnaConsistent x pages slots) : pages.length ≤ x.pmm.nrPages := by
  have hsub : pages ⊆ List.range x.pmm.nrPages := fun p hp =>
    List.mem_range.mpr (krIsValidPageID_iff.mp (h.valid p hp)).2
  have hle := (List.subperm_of_subset h.nodup hsub).length_le
  rwa [List.length_range] at hle

theorem RnaConsistent.find (h : RnaConsistent x pages slots) (hq : q ∈ pages) (hw : w < 64) :
    rnaFindPage x (rnaGetSlotVptr x q w) (2 ^ 32) x.rnaRootPageID = some q := by
  obtain ⟨l, r, rfl⟩ := List.append_of_mem hq
  have hroot : x.rnaRootPageID = (l ++ q :: r).headD IVLDPGID := by
    rw [List.headD_eq_head?_getD, h.root, Option.getD_some]
  have hnd := (List.nodup_append.mp h.nodup).2.2
  have hlen := h.length_le
  have hfits := h.sized.fits
  rw [List.length_append] at hlen
  rw [hroot]
  refine rnaFindPage_walk h.linked (fun p hp => h.ne_ivldpgid hp) (fun p hp => ?_) hw (by omega)
  exact h.apart_of_ne (List.mem_append_left _ hp) hq (hnd p hp q List.mem_cons_self)

theorem RnaConsistent.relinquishNode (h : RnaConsistent x pages slots) (hq : q ∈ pages)
    (hw : w < 64) : rnaRelinquishNode x (rnaGetSlotVptr x q w) =
      rnaRelinquishSlot x (rnaGetMetaSlotVptr x q) w := by
  have hslot : (rnaGetSlotVptr x q w - rnaGetMetaSlotVptr x q) / RNA_SLOT_SIZE % 256 = w := by
    rw [rnaGetSlotVptr_add]
    unfold RNA_SLOT_SIZE
    omega
  rw [rnaRelinquishNode, h.find hq hw]
  dsimp only
  rw [if_neg (h.ne_ivldpgid hq), hslot]

def lessMeta (m : KrRnaMetaSlot) (w : Nat) : KrRnaMetaSlot :=
  { m with bitmap := m.bitmap &&& ~~~intBit w, nrSlots := (m.nrSlots + 255) % 256 }

theorem clearSlot_self (x : VmmState) (q w : Nat) :
    (rnaClearSlot x (rnaGetMetaSlotVptr x q) w).metas (rnaGetMetaSlotVptr x q) =
      lessMeta (x.metas (rnaGetMetaSlotVptr x q)) w := Function.update_self _ _ _

theorem clearSlot_other {a : Nat} (hne : a ≠ rnaGetMetaSlotVptr x q) :
    (rnaClearSlot x (rnaGetMetaSlotVptr x q) w).metas a = x.metas a :=
  Function.update_of_ne hne _ _

theorem MetaOf.less_count {m : KrRnaMetaSlot} (h : MetaOf q S m) (hw : w ∈ S) :
    (lessMeta m w).nrSlots = (S.erase w).card + 1 := by
  have hpos := Finset.card_pos.mpr ⟨w, hw⟩
  have hcard := Finset.card_le_card h.slots
  rw [Nat.card_Icc] at hcard
  rw [lessMeta, h.count, Finset.card_erase_of_mem hw]
  dsimp only
  omega

theorem MetaOf.less_iff {m : KrRnaMetaSlot} (h : MetaOf q S m) (hw : w ∈ S) :
    MetaOf q (S.erase w) (lessMeta m w) ↔ ClearsOne w S := by
  have hbits : bits (lessMeta m w).bitmap = insert 0 S \ bits (intBit w) := by
    rw [lessMeta, bits_and_not, h.bitmap]
  rw [← clearsOne_iff h.slots hw]
  constructor
  · exact fun h' => hbits.symm.trans h'.bitmap
  · exact fun hclear => ⟨(Finset.erase_subset w S).trans h.slots, hbits.trans hclear,
      h.less_count hw, h.this⟩

theorem MetaOf.less_last {m : KrRnaMetaSlot} (h : MetaOf q S m) (hw : w ∈ S) :
    (lessMeta m w).nrSlots = 1 ↔ S = {w} := by
  rw [h.less_count hw, Nat.add_eq_right, Finset.card_eq_zero]
  constructor
  · intro herase
    rw [← Finset.insert_erase hw, herase]
    rfl
  · rintro rfl
    exact Finset.erase_singleton w

theorem RnaConsistent.linked_clear (h : RnaConsistent x pages slots) :
    Linked (rnaPrev (rnaClearSlot x (rnaGetMetaSlotVptr x q) w))
      (rnaNext (rnaClearSlot x (rnaGetMetaSlotVptr x q) w)) IVLDPGID pages IVLDPGID := by
  have hlinks : ∀ p, rnaPrev (rnaClearSlot x (rnaGetMetaSlotVptr x q) w) p = rnaPrev x p ∧
      rnaNext (rnaClearSlot x (rnaGetMetaSlotVptr x q) w) p = rnaNext x p := by
    intro p
    by_cases hptr : rnaGetMetaSlotVptr x p = rnaGetMetaSlotVptr x q
    · have hmeta := clearSlot_self x q w
      rw [← hptr] at hmeta ⊢
      exact ⟨congrArg _ hmeta, congrArg _ hmeta⟩
    · exact ⟨congrArg _ (clearSlot_other hptr), congrArg _ (clearSlot_other hptr)⟩
  exact h.linked.congr (fun p _ => (hlinks p).1) (fun p _ => (hlinks p).2)

theorem RnaConsistent.freed_iff (h : RnaConsistent x pages slots) (hq : q ∈ pages)
    (hw : w ∈ slots q) :
    RnaConsistent (rnaClearSlot x (rnaGetMetaSlotVptr x q) w) pages (freedSlots slots q w) ↔
      ClearsOne w (slots q) := by
  rw [← (h.metas q hq).less_iff hw]
  constructor
  · intro h'
    have hmeta := h'.metas q hq
    rw [freedSlots, Function.update_self] at hmeta
    exact Eq.mp (congrArg (MetaOf q _) (clearSlot_self x q w)) hmeta
  · intro hmeta
    have hsame : ∀ p ∈ pages, p ≠ q →
        (rnaClearSlot x (rnaGetMetaSlotVptr x q) w).metas (rnaGetMetaSlotVptr x p) =
          x.metas (rnaGetMetaSlotVptr x p) :=
      fun p hp hne => clearSlot_other (h.apart_of_ne hp hq hne)
    refine ⟨h.root, h.linked_clear, h.apart, h.valid, fun p hp => ?_, h.sized, h.reserved, h.held⟩
    by_cases hne : p = q
    · subst hne
      rw [freedSlots, Function.update_self]
      exact Eq.mpr (congrArg (MetaOf p _) (clearSlot_self x p w)) hmeta
    · rw [freedSlots, Function.update_of_ne hne]
      exact Eq.mpr (congrArg (MetaOf p _) (hsame p hp hne)) (h.metas p hp)

theorem relinquishBit_taken (st : KrPhysmemmgmtState) (hlt : q / 8 < st.bitmapSize)
    (htaken : bit st.pPrimaryBitmap q = true) :
    ∃ st', relinquishBit st q = (true, st') ∧ UsageOnly st st' ∧ st'.pageMeta = st.pageMeta ∧
      ∀ p, bit st'.pPrimaryBitmap p = true ↔ p ≠ q ∧ bit st.pPrimaryBitmap p = true := by
  have hcleared : relinquishBit st q = (true, { st with
      pPrimaryBitmap := Function.update st.pPrimaryBitmap (q / 8)
        (markBit (st.pPrimaryBitmap (q / 8)) (q % 8) false)
      acquiredPages := sub64 st.acquiredPages 1 }) := by
    rw [relinquishBit, if_neg (Nat.not_le_of_lt hlt), if_pos htaken]
  refine ⟨_, hcleared, ⟨_, _, _, _, rfl⟩, rfl, fun p => ?_⟩
  dsimp only
  rw [bit_update_markBit]
  by_cases hp : p = q
  · rw [if_pos hp]
    exact iff_of_false Bool.false_ne_true fun h => h.1 hp
  · rw [if_neg hp, and_iff_right hp]

theorem PageHeld.relinquish (h : PageHeld st q) (hs : WellSized st)
    (hvalid : krIsValidPageID st q = true) :
    ∃ st', pmRelinquishPage st q = some (true, st') ∧ UsageOnly st st' ∧
      (∀ p, bit st'.pPrimaryBitmap p = true ↔ p ≠ q ∧ bit st.pPrimaryBitmap p = true) ∧
      ∀ p, p ≠ q → st'.pageMeta p = st.pageMeta p := by
  have hlt : q / 8 < st.bitmapSize := by
    have hpages := (krIsValidPageID_iff.mp hvalid).2
    have hcover := hs.covers.1
    omega
  rw [pmRelinquishPage, h.unreserved, if_neg Bool.false_ne_true]
  by_cases hstage : st.initStage = .bookkeeping
  · obtain ⟨hcount, hpinned⟩ := h.counted hstage
    obtain ⟨st', hbit, husage, hmeta, hbits⟩ := relinquishBit_taken { st with
      pageMeta := Function.update st.pageMeta q
        { st.pageMeta q with refCount := (st.pageMeta q).refCount - 1 } } hlt h.taken
    refine ⟨st', ?_, ?_, hbits, fun p hp => ?_⟩
    · rw [if_pos hstage]
      dsimp only
      rw [hpinned, if_neg Bool.false_ne_true, hcount, if_neg Nat.one_ne_zero, Nat.sub_self,
        if_neg (not_not.mpr rfl)]
      rw [hcount] at hbit
      exact congrArg some hbit
    · exact UsageOnly.trans ⟨_, _, _, _, rfl⟩ husage
    · rw [hmeta]
      exact Function.update_of_ne hp _ _
  · obtain ⟨st', hbit, husage, hmeta, hbits⟩ := relinquishBit_taken st hlt h.taken
    refine ⟨st', ?_, husage, hbits, fun p _ => by rw [hmeta]⟩
    rw [if_neg hstage, hbit]

theorem PageHeld.congr {st' : KrPhysmemmgmtState} (h : PageHeld st p) (husage : UsageOnly st st')
    (hbit : bit st'.pPrimaryBitmap p = true) (hmeta : st'.pageMeta p = st.pageMeta p) :
    PageHeld st' p := by
  refine ⟨hbit, (husage.reserved p).trans h.unreserved, fun hstage => ?_⟩
  rw [hmeta]
  refine h.counted ?_
  obtain ⟨bm, n, hint, pm, rfl⟩ := husage
  exact hstage

theorem setMeta_metas_ite (x : VmmState) (page a : Nat) (f : KrRnaMetaSlot → KrRnaMetaSlot) :
    (if page ≠ IVLDPGID then
        setMeta x (rnaGetMetaSlotVptr x page) (f (x.metas (rnaGetMetaSlotVptr x page)))
      else x).metas a =
      if page ≠ IVLDPGID ∧ a = rnaGetMetaSlotVptr x page then f (x.metas a) else x.metas a := by
  by_cases hpage : page ≠ IVLDPGID
  · rw [if_pos hpage]
    by_cases ha : a = rnaGetMetaSlotVptr x page
    · rw [if_pos ⟨hpage, ha⟩, ha]
      exact Function.update_self _ _ _
    · rw [if_neg fun h => ha h.2]
      exact Function.update_of_ne ha _ _
  · rw [if_neg hpage, if_neg fun h => hpage h.1]

theorem setNext_metas (page v a : Nat) : (rnaSetNext x page v).metas a = { x.metas a with
    next := if page ≠ IVLDPGID ∧ a = rnaGetMetaSlotVptr x page then v else (x.metas a).next } := by
  rw [rnaSetNext, setMeta_metas_ite x page a fun slot => { slot with next := v }]
  split <;> rfl

theorem setPrev_metas (page v a : Nat) : (rnaSetPrev x page v).metas a = { x.metas a with
    prev := if page ≠ IVLDPGID ∧ a = rnaGetMetaSlotVptr x page then v else (x.metas a).prev } := by
  rw [rnaSetPrev, setMeta_metas_ite x page a fun slot => { slot with prev := v }]
  split <;> rfl

theorem setNext_frame (x : VmmState) (page v : Nat) : (rnaSetNext x page v).pmm = x.pmm ∧
    (rnaSetNext x page v).rnaRootPageID = x.rnaRootPageID := by
  unfold rnaSetNext
  split <;> exact ⟨rfl, rfl⟩

theorem setPrev_frame (x : VmmState) (page v : Nat) : (rnaSetPrev x page v).pmm = x.pmm ∧
    (rnaSetPrev x page v).rnaRootPageID = x.rnaRootPageID := by
  unfold rnaSetPrev
  split <;> exact ⟨rfl, rfl⟩

theorem rnaUnlink_frame (x : VmmState) (p : Nat) : (rnaUnlink x p).pmm = x.pmm ∧
    (rnaUnlink x p).rnaRootPageID = x.rnaRootPageID := by
  obtain ⟨hpmm, hroot⟩ := setNext_frame x (x.metas p).prev (x.metas p).next
  obtain ⟨hpmm', hroot'⟩ := setPrev_frame (rnaSetNext x (x.metas p).prev (x.metas p).next)
    ((rnaSetNext x (x.metas p).prev (x.metas p).next).metas p).next
    ((rnaSetNext x (x.metas p).prev (x.metas p).next).metas p).prev
  exact ⟨hpmm'.trans hpmm, hroot'.trans hroot⟩

theorem rnaUnlink_metas (hprev : rnaPrev x q ≠ IVLDPGID →
      rnaGetMetaSlotVptr x (rnaPrev x q) ≠ rnaGetMetaSlotVptr x q) (a : Nat) :
    (rnaUnlink x (rnaGetMetaSlotVptr x q)).metas a = { x.metas a with
      prev := if rnaNext x q ≠ IVLDPGID ∧ a = rnaGetMetaSlotVptr x (rnaNext x q) then rnaPrev x q
        else (x.metas a).prev
      next := if rnaPrev x q ≠ IVLDPGID ∧ a = rnaGetMetaSlotVptr x (rnaPrev x q) then rnaNext x q
        else (x.metas a).next } := by
  have hself : (rnaSetNext x (rnaPrev x q) (rnaNext x q)).metas (rnaGetMetaSlotVptr x q) =
      x.metas (rnaGetMetaSlotVptr x q) := by
    rw [setNext_metas, if_neg fun h => hprev h.1 h.2.symm]
  have hptr : rnaGetMetaSlotVptr (rnaSetNext x (rnaPrev x q) (rnaNext x q)) (rnaNext x q) =
      rnaGetMetaSlotVptr x (rnaNext x q) :=
    rnaGetMetaSlotVptr_congr (congrArg _ (setNext_frame x _ _).1) _
  have hunlink : rnaUnlink x (rnaGetMetaSlotVptr x q) =
      rnaSetPrev (rnaSetNext x (rnaPrev x q) (rnaNext x q)) (rnaNext x q) (rnaPrev x q) := by
    change rnaSetPrev (rnaSetNext x (rnaPrev x q) (rnaNext x q))
      ((rnaSetNext x (rnaPrev x q) (rnaNext x q)).metas (rnaGetMetaSlotVptr x q)).next
      ((rnaSetNext x (rnaPrev x q) (rnaNext x q)).metas (rnaGetMetaSlotVptr x q)).prev = _
    rw [hself]
    rfl
  rw [hunlink, setPrev_metas, hptr, setNext_metas]

/-- Pages of one list are told apart by the addresses of their meta slots. -/
structure PagesApart (x : VmmState) (pages : List Nat) : Prop where
  inj : ∀ p ∈ pages, ∀ p' ∈ pages, rnaGetMetaSlotVptr x p = rnaGetMetaSlotVptr x p' → p = p'
  valid : ∀ p ∈ pages, p ≠ IVLDPGID
  nodup : pages.Nodup

theorem RnaConsistent.pagesApart (h : RnaConsistent x pages slots) : PagesApart x pages :=
  ⟨fun _ hp _ hp' heq => List.inj_on_of_nodup_map h.apart hp hp' heq,
    fun _ hp => h.ne_ivldpgid hp, h.nodup⟩

theorem PagesApart.neighbour {c : Nat} (h : PagesApart x pages) (hp : p ∈ pages)
    (hc : c = IVLDPGID ∨ c ∈ pages) :
    (c ≠ IVLDPGID ∧ rnaGetMetaSlotVptr x p = rnaGetMetaSlotVptr x c) ↔ p = c := by
  constructor
  · rintro ⟨hne, heq⟩
    exact h.inj p hp c (hc.resolve_left hne) heq
  · rintro rfl
    exact ⟨h.valid p hp, rfl⟩

theorem PagesApart.unlink (h : PagesApart x (l ++ q :: r))
    (hlinked : Linked (rnaPrev x) (rnaNext x) IVLDPGID (l ++ q :: r) IVLDPGID) :
    Linked (rnaPrev (rnaUnlink x (rnaGetMetaSlotVptr x q)))
        (rnaNext (rnaUnlink x (rnaGetMetaSlotVptr x q))) IVLDPGID (l ++ r) IVLDPGID ∧
      rnaPrev x q = l.getLastD IVLDPGID ∧ rnaNext x q = r.headD IVLDPGID ∧
      ∀ a, ∃ prev next, (rnaUnlink x (rnaGetMetaSlotVptr x q)).metas a =
        { x.metas a with prev, next } := by
  obtain ⟨-, hprev, hnext, -⟩ := linked_append.mp hlinked
  have hsub : ∀ p ∈ l ++ r, p ∈ l ++ q :: r := fun p hp => by
    rw [List.mem_append] at hp ⊢
    exact hp.imp id (List.mem_cons_of_mem q)
  have hnd : (l ++ r).Nodup :=
    h.nodup.sublist (List.Sublist.append_left (List.sublist_cons_self q r) l)
  have hnil : IVLDPGID ∉ l ++ r := fun hmem => h.valid _ (hsub _ hmem) rfl
  have hlast : rnaPrev x q = IVLDPGID ∨ rnaPrev x q ∈ l ++ q :: r := by
    rw [hprev]
    by_cases hempty : l = []
    · exact Or.inl (by rw [hempty]; rfl)
    · exact Or.inr (List.mem_append_left _ (getLastD_mem hempty))
  have hhead : rnaNext x q = IVLDPGID ∨ rnaNext x q ∈ l ++ q :: r := by
    rw [hnext]
    by_cases hempty : r = []
    · exact Or.inl (by rw [hempty]; rfl)
    · exact Or.inr (List.mem_append_right l (List.mem_cons_of_mem q (headD_mem hempty)))
  have hself : rnaPrev x q ≠ IVLDPGID →
      rnaGetMetaSlotVptr x (rnaPrev x q) ≠ rnaGetMetaSlotVptr x q := by
    intro hne heq
    have hq : rnaPrev x q = q :=
      h.inj _ (hlast.resolve_left hne) q (List.mem_append_right l List.mem_cons_self) heq
    have hmem : rnaPrev x q ∈ l := by
      rw [hprev] at hne ⊢
      refine getLastD_mem fun hempty => hne ?_
      rw [hempty]
      rfl
    rw [hq] at hmem
    exact (List.nodup_append.mp h.nodup).2.2 q hmem q List.mem_cons_self rfl
  have hmetas := rnaUnlink_metas hself
  have hptr : ∀ p, rnaGetMetaSlotVptr (rnaUnlink x (rnaGetMetaSlotVptr x q)) p =
      rnaGetMetaSlotVptr x p :=
    rnaGetMetaSlotVptr_congr (congrArg _ (rnaUnlink_frame x _).1)
  refine ⟨hlinked.remove hnd hnil (fun p hp => ?_) (fun p hp => ?_), hprev, hnext,
    fun a => ⟨_, _, hmetas a⟩⟩
  · rw [rnaPrev, hptr, hmetas, ← hnext, ← hprev]
    exact if_congr (h.neighbour (hsub p hp) hhead) rfl rfl
  · rw [rnaNext, hptr, hmetas, ← hnext, ← hprev]
    exact if_congr (h.neighbour (hsub p hp) hlast) rfl rfl

def clearedState (x : VmmState) (slots : Nat → Finset Nat) (q w : Nat) : VmmState :=
  if slots q = {w} then
    rnaUnlink (rnaClearSlot x (rnaGetMetaSlotVptr x q) w) (rnaGetMetaSlotVptr x q)
  else rnaClearSlot x (rnaGetMetaSlotVptr x q) w

theorem RnaConsistent.unlink (h : RnaConsistent x (l ++ q :: r) slots) (w : Nat) :
    Linked (rnaPrev (rnaUnlink (rnaClearSlot x (rnaGetMetaSlotVptr x q) w) (rnaGetMetaSlotVptr x q)))
        (rnaNext (rnaUnlink (rnaClearSlot x (rnaGetMetaSlotVptr x q) w) (rnaGetMetaSlotVptr x q)))
        IVLDPGID (l ++ r) IVLDPGID ∧
      ∀ a, ∃ prev next,
        (rnaUnlink (rnaClearSlot x (rnaGetMetaSlotVptr x q) w) (rnaGetMetaSlotVptr x q)).metas a =
          { (rnaClearSlot x (rnaGetMetaSlotVptr x q) w).metas a with prev, next } := by
  have hapart : PagesApart (rnaClearSlot x (rnaGetMetaSlotVptr x q) w) (l ++ q :: r) :=
    ⟨h.pagesApart.inj, h.pagesApart.valid, h.pagesApart.nodup⟩
  obtain ⟨hlinked, -, -, hmetas⟩ := hapart.unlink (h.linked_clear (w := w))
  exact ⟨hlinked, hmetas⟩

theorem RnaConsistent.relinquishSlot (h : RnaConsistent x pages slots) (hq : q ∈ pages)
    (hw : w ∈ slots q) : rnaRelinquishSlot x (rnaGetMetaSlotVptr x q) w =
      (pmRelinquishPage x.pmm q).map fun page =>
        (true, { clearedState x slots q w with pmm := page.2 }) := by
  have hlast := (h.metas q hq).less_last hw
  rw [← clearSlot_self] at hlast
  have hthis : ((rnaClearSlot x (rnaGetMetaSlotVptr x q) w).metas (rnaGetMetaSlotVptr x q)).this =
      q := (congrArg _ (clearSlot_self x q w)).trans (h.metas q hq).this
  have hpmm : (clearedState x slots q w).pmm = x.pmm := by
    unfold clearedState
    split
    · exact (rnaUnlink_frame _ _).1
    · rfl
  have hthis' : ((clearedState x slots q w).metas (rnaGetMetaSlotVptr x q)).this = q := by
    unfold clearedState
    split
    · obtain ⟨l, r, rfl⟩ := List.append_of_mem hq
      obtain ⟨prev, next, hmeta⟩ := (h.unlink w).2 (rnaGetMetaSlotVptr x q)
      rw [hmeta]
      exact hthis
    · exact hthis
  have hstate : (if ((rnaClearSlot x (rnaGetMetaSlotVptr x q) w).metas
      (rnaGetMetaSlotVptr x q)).nrSlots = 1 then
        rnaUnlink (rnaClearSlot x (rnaGetMetaSlotVptr x q) w) (rnaGetMetaSlotVptr x q)
      else rnaClearSlot x (rnaGetMetaSlotVptr x q) w) = clearedState x slots q w :=
    if_congr hlast rfl rfl
  rw [rnaRelinquishSlot]
  dsimp only
  rw [hstate, hpmm, hthis']

theorem RnaConsistent.givenBack (h : RnaConsistent x (l ++ q :: r) slots) (hl : l ≠ [])
    (husage : UsageOnly x.pmm st)
    (hbits : ∀ p, bit st.pPrimaryBitmap p = true ↔ p ≠ q ∧ bit x.pmm.pPrimaryBitmap p = true)
    (hcounts : ∀ p, p ≠ q → st.pageMeta p = x.pmm.pageMeta p) (w : Nat) :
    RnaConsistent { rnaUnlink (rnaClearSlot x (rnaGetMetaSlotVptr x q) w)
      (rnaGetMetaSlotVptr x q) with pmm := st } (l ++ r) (freedSlots slots q w) := by
  obtain ⟨hlinked, hmetas⟩ := h.unlink w
  obtain ⟨hpmm, hroot⟩ := rnaUnlink_frame (rnaClearSlot x (rnaGetMetaSlotVptr x q) w)
    (rnaGetMetaSlotVptr x q)
  generalize rnaUnlink (rnaClearSlot x (rnaGetMetaSlotVptr x q) w) (rnaGetMetaSlotVptr x q) = y
    at hlinked hmetas hpmm hroot ⊢
  have hsize : st.nrPages = x.pmm.nrPages := husage.sameSize.1
  have hptr : ∀ p, rnaGetMetaSlotVptr { y with pmm := st } p = rnaGetMetaSlotVptr x p :=
    rnaGetMetaSlotVptr_congr hsize
  have hptr' : ∀ p, rnaGetMetaSlotVptr y p = rnaGetMetaSlotVptr x p :=
    rnaGetMetaSlotVptr_congr (congrArg _ hpmm)
  have hsub : (l ++ r).Sublist (l ++ q :: r) :=
    List.Sublist.append_left (List.sublist_cons_self q r) l
  have hne : ∀ p ∈ l ++ r, p ≠ q := by
    rintro p hp rfl
    exact (List.nodup_middle.mp h.nodup |> List.nodup_cons.mp).1 hp
  refine ⟨?_, ?_, ?_, fun p hp => ?_, fun p hp => ?_, ?_, ?_, fun p hp hpr => ?_⟩
  · have hhead := h.root
    rw [List.head?_append_of_ne_nil _ hl] at hhead ⊢
    rw [hhead]
    exact congrArg some hroot.symm
  · refine hlinked.congr (fun p _ => ?_) (fun p _ => ?_)
    · rw [rnaPrev, rnaPrev, hptr, hptr']
    · rw [rnaNext, rnaNext, hptr, hptr']
  · rw [List.map_congr_left (fun p _ => hptr p)]
    exact h.apart.sublist (hsub.map _)
  · have hvalid := h.valid p (hsub.subset hp)
    rw [krIsValidPageID_iff] at hvalid ⊢
    rw [hsize]
    exact hvalid
  · obtain ⟨prev, next, hmeta⟩ := hmetas (rnaGetMetaSlotVptr x p)
    have hold := h.metas p (hsub.subset hp)
    rw [clearSlot_other (h.apart_of_ne (hsub.subset hp) (List.mem_append_right l
      List.mem_cons_self) (hne p hp))] at hmeta
    rw [freedSlots, Function.update_of_ne (hne p hp), hptr]
    dsimp only
    rw [hmeta]
    exact ⟨hold.slots, hold.bitmap, hold.count, hold.this⟩
  · exact husage.sameSize.wellSized h.sized
  · dsimp only
    rw [hroot]
    exact (husage.reserved _).trans h.reserved
  · have hheld := h.held p (hsub.subset hp) fun heq => hpr (heq.trans hroot.symm)
    exact hheld.congr husage ((hbits p).mpr ⟨hne p hp, hheld.taken⟩) (hcounts p (hne p hp))

theorem RnaConsistent.released_iff_last (h : RnaConsistent x pages slots) (hq : q ∈ pages)
    (hroot : q ≠ x.rnaRootPageID) (hw : w ∈ slots q) :
    NodeReleased x pages slots q w ↔ slots q = {w} := by
  have hlt : w < 64 := Nat.lt_succ_of_le (Finset.mem_Icc.mp ((h.metas q hq).slots hw)).2
  obtain ⟨st, hpm, husage, hbits, hcounts⟩ :=
    (h.held q hq hroot).relinquish h.sized (h.valid q hq)
  have hcall : rnaRelinquishNode x (rnaGetSlotVptr x q w) =
      some (true, { clearedState x slots q w with pmm := st }) := by
    rw [h.relinquishNode hq hlt, h.relinquishSlot hq hw, hpm]
    rfl
  have hgone : bit st.pPrimaryBitmap q = false := by
    rw [← Bool.not_eq_true, hbits]
    exact fun hin => hin.1 rfl
  constructor
  · rintro ⟨y, hy, hreleased⟩
    rw [hcall] at hy
    cases hy
    exact ((hreleased.returned q).mp ⟨(h.held q hq hroot).taken, hgone⟩).2.2
  · intro hlast
    have hnode : LastNode x slots q w := ⟨hroot, hlast⟩
    obtain ⟨l, r, rfl⟩ := List.append_of_mem hq
    have hl : l ≠ [] := by
      rintro rfl
      exact hroot (Option.some.inj h.root)
    refine ⟨_, hcall, ?_, fun p => ?_⟩
    · have herase : (l ++ q :: r).erase q = l ++ r := by
        have hout : q ∉ l := fun hmem =>
          (List.nodup_append.mp h.nodup).2.2 q hmem q List.mem_cons_self rfl
        rw [List.erase_append_right _ hout, List.erase_cons_head]
      rw [if_pos hnode, herase, clearedState, if_pos hlast]
      exact h.givenBack hl husage hbits hcounts w
    · dsimp only
      rw [← Bool.not_eq_true, hbits]
      constructor
      · rintro ⟨hin, hout⟩
        exact ⟨not_not.mp fun hne => hout ⟨hne, hin⟩, hnode⟩
      · rintro ⟨rfl, -⟩
        exact ⟨(h.held p hq hroot).taken, fun hin => hin.1 rfl⟩

theorem RnaConsistent.released_root (h : RnaConsistent x pages slots)
    (hq : x.rnaRootPageID ∈ pages) (hw : w ∈ slots x.rnaRootPageID) :
    NodeReleased x pages slots x.rnaRootPageID w ↔
      RnaConsistent (clearedState x slots x.rnaRootPageID w) pages
        (freedSlots slots x.rnaRootPageID w) := by
  have hlt : w < 64 := Nat.lt_succ_of_le (Finset.mem_Icc.mp ((h.metas _ hq).slots hw)).2
  have hpmm : (clearedState x slots x.rnaRootPageID w).pmm = x.pmm := by
    unfold clearedState
    split
    · exact (rnaUnlink_frame _ _).1
    · rfl
  have hkept : pmRelinquishPage x.pmm x.rnaRootPageID = some (false, x.pmm) := by
    rw [pmRelinquishPage, if_pos h.reserved]
  have hcall : rnaRelinquishNode x (rnaGetSlotVptr x x.rnaRootPageID w) =
      some (true, clearedState x slots x.rnaRootPageID w) := by
    rw [h.relinquishNode hq hlt, h.relinquishSlot hq hw, hkept, Option.map_some, ← hpmm]
  have hnode : ¬LastNode x slots x.rnaRootPageID w := fun hlast => hlast.1 rfl
  constructor
  · rintro ⟨y, hy, hreleased⟩
    rw [hcall] at hy
    cases hy
    have hconsistent := hreleased.consistent
    rwa [if_neg hnode] at hconsistent
  · intro hconsistent
    refine ⟨_, hcall, ?_, fun p => ?_⟩
    · rwa [if_neg hnode]
    · rw [hpmm]
      refine iff_of_false (fun hp => ?_) (fun hp => hnode hp.2)
      rw [hp.1] at hp
      exact absurd hp.2 (by decide)

theorem RnaConsistent.released_iff_root (h : RnaConsistent x pages slots)
    (hq : x.rnaRootPageID ∈ pages) (hw : w ∈ slots x.rnaRootPageID) :
    NodeReleased x pages slots x.rnaRootPageID w ↔ ClearsOne w (slots x.rnaRootPageID) ∧
      (slots x.rnaRootPageID = {w} → pages = [x.rnaRootPageID]) := by
  rw [h.released_root hq hw, ← h.freed_iff hq hw]
  by_cases hlast : slots x.rnaRootPageID = {w}
  · obtain ⟨r, rfl⟩ : ∃ r, pages = x.rnaRootPageID :: r := by
      cases pages with
      | nil => exact absurd hq List.not_mem_nil
      | cons p r => exact ⟨r, by rw [Option.some.inj h.root]⟩
    rw [forall_prop_of_true hlast, clearedState, if_pos hlast]
    cases r with
    | nil =>
      obtain ⟨hprev, hnext, -⟩ := h.linked_clear (q := x.rnaRootPageID) (w := w)
      have halone := rnaUnlink_alone hprev hnext
      rw [and_iff_left rfl]
      exact iff_of_eq (congrArg (fun y => RnaConsistent y _ _) halone)
    | cons p r =>
      refine iff_of_false (fun hconsistent => ?_) (fun hboth => ?_)
      · obtain ⟨hstart, -⟩ := (h.unlink (l := []) w).1
        obtain ⟨-, -, hbehind, -⟩ := hconsistent.linked
        exact h.ne_ivldpgid hq (hbehind.symm.trans hstart)
      · simp at hboth
  · rw [clearedState, if_neg hlast]
    exact (and_iff_left fun heq => absurd heq hlast).symm

/-- A live node is given back as it should be, in every consistent state, exactly under these
conditions. -/
theorem nodeReleased_iff (h : RnaConsistent x pages slots) (hq : q ∈ pages) (hw : w ∈ slots q) :
    NodeReleased x pages slots q w ↔
      if q = x.rnaRootPageID then ClearsOne w (slots q) ∧ (slots q = {w} → pages = [q])
      else slots q = {w} := by
  by_cases hroot : q = x.rnaRootPageID
  · subst hroot
    rw [if_pos rfl]
    exact h.released_iff_root hq hw
  · rw [if_neg hroot]
    exact h.released_iff_last hq hroot hw

def twoPages (x : VmmState) (bitmap : BitVec 64) (nrSlots : Nat) : VmmState :=
  { x with
    pmm := (pmAcquirePage x.pmm PAGE_TYPE_RNA IVLDPGID).2
    metas := fun a =>
      if a = rnaGetMetaSlotVptr x 256 then ⟨3#64, 256, IVLDPGID, 257, 2⟩
      else ⟨bitmap, 257, 256, IVLDPGID, nrSlots⟩ }

def twoSlots (S : Finset Nat) (q : Nat) : Finset Nat := if q = 256 then {1} else S

theorem twoPages_root (x : VmmState) (bitmap : BitVec 64) (nrSlots : Nat) :
    (twoPages x bitmap nrSlots).rnaRootPageID = x.rnaRootPageID := rfl

theorem twoPages_consistent {bitmap : BitVec 64} {nrSlots : Nat} (hroot : x.rnaRootPageID = 256)
    (hne : rnaGetMetaSlotVptr x 256 ≠ rnaGetMetaSlotVptr x 257)
    (hst : (pmAcquirePage x.pmm PAGE_TYPE_RNA IVLDPGID).2 = st) (hs : WellSized st)
    (hvalid : krIsValidPageID st 256 = true ∧ krIsValidPageID st 257 = true)
    (hreserved : krIsPhysicalPageReserved st 256 = true) (hheld : PageHeld st 257)
    (hmeta : MetaOf 257 S ⟨bitmap, 257, 256, IVLDPGID, nrSlots⟩) :
    RnaConsistent (twoPages x bitmap nrSlots) [256, 257] (twoSlots S) := by
  have hpages := (usageOnly_pmAcquirePage x.pmm PAGE_TYPE_RNA IVLDPGID).sameSize.1
  have hptr : ∀ p, rnaGetMetaSlotVptr (twoPages x bitmap nrSlots) p = rnaGetMetaSlotVptr x p :=
    rnaGetMetaSlotVptr_congr hpages
  have hpmm : (twoPages x bitmap nrSlots).pmm = st := hst
  have hfirst : (twoPages x bitmap nrSlots).metas (rnaGetMetaSlotVptr x 256) =
      ⟨3#64, 256, IVLDPGID, 257, 2⟩ := if_pos rfl
  have hsecond : (twoPages x bitmap nrSlots).metas (rnaGetMetaSlotVptr x 257) =
      ⟨bitmap, 257, 256, IVLDPGID, nrSlots⟩ := if_neg hne.symm
  refine ⟨congrArg some hroot.symm, ?_, ?_, fun q hq => ?_, fun q hq => ?_, ?_, ?_,
    fun q hq hqr => ?_⟩
  · simp only [Linked, rnaPrev, rnaNext, hptr, hfirst, hsecond, List.headD_cons, List.headD_nil,
      and_true]
  · simp only [List.map_cons, List.map_nil, hptr, List.nodup_cons, List.mem_singleton]
    exact ⟨hne, List.not_mem_nil, List.nodup_nil⟩
  · rw [hpmm]
    obtain rfl | hq := List.mem_cons.mp hq
    · exact hvalid.1
    · rw [List.mem_singleton.mp hq]
      exact hvalid.2
  · rw [hptr]
    obtain rfl | hq := List.mem_cons.mp hq
    · rw [hfirst, show twoSlots S 256 = {1} from rfl]
      exact ⟨by decide, by decide +kernel, rfl, rfl⟩
    · rw [List.mem_singleton.mp hq, hsecond]
      exact hmeta
  · rw [hpmm]
    exact hs
  · rw [hpmm, twoPages_root, hroot]
    exact hreserved
  · rw [hpmm]
    obtain rfl | hq := List.mem_cons.mp hq
    · exact absurd hroot.symm hqr
    · rw [List.mem_singleton.mp hq]
      exact hheld

theorem smallRna_twoPages {bitmap : BitVec 64} {nrSlots : Nat}
    (hmeta : MetaOf 257 S ⟨bitmap, 257, 256, IVLDPGID, nrSlots⟩) :
    RnaConsistent (twoPages smallRna bitmap nrSlots) [256, 257] (twoSlots S) := by
  have hne : rnaGetMetaSlotVptr smallRna 256 ≠ rnaGetMetaSlotVptr smallRna 257 := by
    decide +kernel
  have hs : WellSized (pmAcquirePage smallRna.pmm PAGE_TYPE_RNA IVLDPGID).2 :=
    (usageOnly_pmAcquirePage smallRna.pmm PAGE_TYPE_RNA IVLDPGID).sameSize.wellSized
      rootFilling_smallRna.2.sized
  have hvalid : krIsValidPageID (pmAcquirePage smallRna.pmm PAGE_TYPE_RNA IVLDPGID).2 256 = true ∧
      krIsValidPageID (pmAcquirePage smallRna.pmm PAGE_TYPE_RNA IVLDPGID).2 257 = true := by
    decide +kernel
  have hreserved : krIsPhysicalPageReserved
      (pmAcquirePage smallRna.pmm PAGE_TYPE_RNA IVLDPGID).2 256 = true := by
    decide +kernel
  have hheld : PageHeld (pmAcquirePage smallRna.pmm PAGE_TYPE_RNA IVLDPGID).2 257 :=
    ⟨by decide +kernel, by decide +kernel, by decide +kernel⟩
  exact twoPages_consistent smallRna_root hne rfl hs hvalid hreserved hheld hmeta

/-- Page 257 has one node: it is unlinked and given back. -/
theorem nodeReleased_iff_smallRna :
    NodeReleased (twoPages smallRna 3#64 2) [256, 257] (twoSlots {1}) 257 1 := by
  have hmeta : MetaOf 257 {1} ⟨3#64, 257, 256, IVLDPGID, 2⟩ :=
    ⟨by decide, by decide +kernel, rfl, rfl⟩
  have hroot : (257 : Nat) ≠ (twoPages smallRna 3#64 2).rnaRootPageID := by
    rw [twoPages_root, smallRna_root]
    decide
  refine (nodeReleased_iff (smallRna_twoPages hmeta) (by decide) (by decide)).mpr ?_
  rw [if_neg hroot]
  rfl

/-- Page 257 has two nodes: with the first of them the page goes. -/
theorem page_lost_with_node : ∃ x pages slots q w, RnaConsistent x pages slots ∧ q ∈ pages ∧
    w ∈ slots q ∧ ¬NodeReleased x pages slots q w := by
  have hmeta : MetaOf 257 {1, 2} ⟨7#64, 257, 256, IVLDPGID, 3⟩ :=
    ⟨by decide, by decide +kernel, rfl, rfl⟩
  have hroot : (257 : Nat) ≠ (twoPages smallRna 7#64 3).rnaRootPageID := by
    rw [twoPages_root, smallRna_root]
    decide
  have hconsistent := smallRna_twoPages hmeta
  refine ⟨_, _, _, 257, 1, hconsistent, by decide, by decide, fun h => ?_⟩
  have hlast := (hconsistent.released_iff_last (by decide) hroot (by decide)).mp h
  exact absurd hlast (by decide)

end Ych.Virtmemmgmt
