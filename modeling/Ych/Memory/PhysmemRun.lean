import Ych.Base.Ownership
import Ych.Memory.SparseAcquire
import Ych.Memory.PageAddress

/-! Runs of the physical memory manager: the state its initialisation leaves, single pages
handed out and given back, and the default hint that earlier acquisitions leave behind. -/
namespace Ych.Physmemmgmt
open Words Bitmap PageStatus BootstrapArena Runs Ownership

variable {st : KrPhysmemmgmtState}

/-- The states `KrInitPhysmemmgmt` leaves when it succeeds, for any maps whose canonical
regions lie in the 64-bit physical address space, and any arena. -/
def PostInit (st : KrPhysmemmgmtState) : Prop :=
  ∃ maps mem arena arena',
    (∀ d ∈ maps.canonicalMemoryMap, d.physicalBase + d.pageCount * KR_PAGE_SIZE ≤ 2 ^ 64) ∧
    maps.loadInfo.reserveSize < 2 ^ 64 ∧
    krInitPhysmemmgmt zeroState maps mem arena = (true, st, arena')

def AdvisoryTailSet (st : KrPhysmemmgmtState) : Prop :=
  ∀ p, st.nrPages ≤ p → p < 8 * st.bitmapSize → bit st.pAdvisoryBitmap p = true

theorem krSetPhysicalPageStatus_above {nrPages idStart n p : Nat} (m : Bytes) (status : Bool)
    (hw : idStart + n < 2 ^ 64) (hp : nrPages ≤ p) :
    bit (krSetPhysicalPageStatus nrPages m idStart n status).2 p = bit m p := by
  by_cases h : idStart + n ≤ nrPages
  · rw [(krSetPhysicalPageStatus_spec m status h hw).2 p, if_neg (by omega)]
  · rw [krSetPhysicalPageStatus_refused m status (by rw [wrap64_of_lt hw]; omega)]

theorem setAdvisory_tail {idStart n : Nat} {status : Bool} (h : AdvisoryTailSet st)
    (hn : n ≤ 2 ^ 63) : AdvisoryTailSet (setAdvisory st idStart n status) := by
  intro p h1 h2
  have hid := wrap32_lt idStart
  have habove := krSetPhysicalPageStatus_above st.pAdvisoryBitmap status
    (by omega : wrap32 idStart + n < 2 ^ 64) h1
  exact habove.trans (h p h1 h2)

theorem release_foldl (ds : List KrMemoryDescriptor) (h : AdvisoryTailSet st)
    (hd : ∀ d ∈ ds, d.physicalBase + d.pageCount * KR_PAGE_SIZE ≤ 2 ^ 64) :
    AdvisoryTailSet (ds.foldl release st) ∧ (ds.foldl release st).nrPages = st.nrPages ∧
    (ds.foldl release st).bitmapSize = st.bitmapSize := by
  induction ds generalizing st with
  | nil => exact ⟨h, rfl, rfl⟩
  | cons d ds ih =>
    have hn : d.pageCount ≤ 2 ^ 63 := by
      have := hd d List.mem_cons_self
      unfold KR_PAGE_SIZE at this
      omega
    have hstep : AdvisoryTailSet (release st d) ∧ (release st d).nrPages = st.nrPages ∧
        (release st d).bitmapSize = st.bitmapSize := by
      unfold release
      dsimp only
      by_cases hh : st.acquireHint = 0 ∨ st.acquireHint = IVLDPGID
      · rw [if_pos hh]
        refine ⟨setAdvisory_tail ?_ hn, rfl, rfl⟩
        exact h
      · rw [if_neg hh]
        exact ⟨setAdvisory_tail h hn, rfl, rfl⟩
    obtain ⟨h1, h2, h3⟩ := ih hstep.1 fun d' hd' => hd d' (List.mem_cons_of_mem d hd')
    exact ⟨h1, h2.trans hstep.2.1, h3.trans hstep.2.2⟩

theorem krBootstrapArenaAcquire_zero (a : Arena) : (krBootstrapArenaAcquire a 0).1 = 0 := by
  have hzero : sub64 (wrap64 (0 + 16)) 1 &&& not64 15 = 0 := by decide
  rw [krBootstrapArenaAcquire, hzero, if_pos (Or.inl rfl)]

theorem sizeBitmaps_wellSized (h : (sizeBitmaps st).bitmapSize ≠ 0) :
    WellSized (sizeBitmaps st) := by
  have hnr : (sizeBitmaps st).nrPages < 2 ^ 32 := wrap32_lt _
  have hsize : (sizeBitmaps st).bitmapSize = wrap32 ((sizeBitmaps st).nrPages + 7) / 8 := rfl
  rw [hsize] at h
  unfold wrap32 at h
  have hfits : (sizeBitmaps st).nrPages + 7 < 2 ^ 32 := by omega
  exact ⟨by rw [hsize, wrap32_of_lt hfits], hfits⟩

theorem fill_tail (st : KrPhysmemmgmtState) (m : Bytes) : AdvisoryTailSet { st with
    pAdvisoryBitmap := fill m 0 st.bitmapSize 0xFF#8 } := by
  intro p _ hp
  have hbyte : (0xFF#8 : Byte) = fillByte true := rfl
  dsimp only at hp ⊢
  rw [hbyte, bit_fill, if_pos (by omega)]

structure Booted (st : KrPhysmemmgmtState) : Prop where
  stage : st.initStage = .basic
  sized : WellSized st
  copied : ∀ p, p < 8 * st.bitmapSize → bit st.pPrimaryBitmap p = bit st.pAdvisoryBitmap p
  advisoryTail : AdvisoryTailSet st

theorem markAvailable_tail {maps : KrMemoryMaps} (h : AdvisoryTailSet st)
    (hd : ∀ d ∈ maps.canonicalMemoryMap, d.physicalBase + d.pageCount * KR_PAGE_SIZE ≤ 2 ^ 64)
    (hr : maps.loadInfo.reserveSize < 2 ^ 64) :
    AdvisoryTailSet (markAvailable st maps) ∧ (markAvailable st maps).nrPages = st.nrPages ∧
    (markAvailable st maps).bitmapSize = st.bitmapSize := by
  obtain ⟨ht, hn, hb⟩ := release_foldl maps.canonicalMemoryMap h hd
  refine ⟨setAdvisory_tail (setAdvisory_tail ht ?_) (by decide), hn, hb⟩
  unfold KR_PAGE_SIZE
  omega

theorem krInitPhysmemmgmt_ok {maps : KrMemoryMaps} {mem : Bytes} {arena arena' : Arena}
    (hinit : krInitPhysmemmgmt zeroState maps mem arena = (true, st, arena')) :
    ∃ (s₀ s₁ : KrPhysmemmgmtState) (advisory primary : Bytes),
      s₀ = sizeBitmaps (maps.memoryMap.foldl discover zeroState) ∧ s₀.bitmapSize ≠ 0 ∧
      s₁ = markAvailable { s₀ with
        pAdvisoryBitmap := fill advisory 0 s₀.bitmapSize 0xFF#8 } maps ∧
      st = { s₁ with
        pPrimaryBitmap := fun i => if i < s₁.bitmapSize then s₁.pAdvisoryBitmap i else primary i
        initStage := .basic } := by
  unfold krInitPhysmemmgmt at hinit
  rw [if_neg (by decide)] at hinit
  dsimp only at hinit
  generalize hs₀ : sizeBitmaps (maps.memoryMap.foldl discover zeroState) = s₀ at hinit
  by_cases hadvisory : (krBootstrapArenaAcquire arena s₀.bitmapSize).1 = 0
  · rw [if_pos hadvisory] at hinit
    simp at hinit
  · have hsize : s₀.bitmapSize ≠ 0 := by
      intro hzero
      rw [hzero] at hadvisory
      exact hadvisory (krBootstrapArenaAcquire_zero arena)
    rw [if_neg hadvisory] at hinit
    split at hinit
    · simp at hinit
    · simp only [Prod.mk.injEq, true_and] at hinit
      exact ⟨s₀, _, _, _, rfl, hsize, rfl, hinit.1.symm⟩

theorem PostInit.booted (h : PostInit st) : Booted st := by
  obtain ⟨maps, mem, arena, arena', hmaps, hreserve, hinit⟩ := h
  obtain ⟨s₀, s₁, advisory, primary, hs₀, hsize, hs₁, rfl⟩ := krInitPhysmemmgmt_ok hinit
  have hsized : WellSized s₀ := by
    rw [hs₀] at hsize ⊢
    exact sizeBitmaps_wellSized hsize
  obtain ⟨htail, hnr, hbitmap⟩ := markAvailable_tail (fill_tail s₀ advisory) hmaps hreserve
  rw [← hs₁] at htail hnr hbitmap
  refine ⟨rfl, ⟨?_, ?_⟩, fun p hp => ?_, htail⟩
  · exact hbitmap.trans (hsized.size.trans (by rw [hnr]))
  · exact hnr ▸ hsized.fits
  · have hbyte : p / 8 < s₁.bitmapSize := by
      dsimp only at hp
      omega
    simp only [bit, if_pos hbyte]

theorem Booted.tailSet (h : Booted st) : TailSet st := fun p h1 h2 =>
  (h.copied p h2).trans (h.advisoryTail p h1 h2)

theorem krIsPhysicalPageReserved_congr {st' : KrPhysmemmgmtState} (hn : st'.nrPages = st.nrPages)
    (ha : st'.pAdvisoryBitmap = st.pAdvisoryBitmap) (p : Nat) :
    krIsPhysicalPageReserved st' p = krIsPhysicalPageReserved st p := by
  simp only [krIsPhysicalPageReserved, krIsValidPageID, hn, ha]

theorem Granted.frame {pages : List Nat} {st' : KrPhysmemmgmtState} (h : Granted st pages st') :
    st'.initStage = st.initStage ∧ st'.nrPages = st.nrPages ∧ st'.bitmapSize = st.bitmapSize ∧
    st'.pAdvisoryBitmap = st.pAdvisoryBitmap := by
  obtain ⟨bm, pm, hint, rfl, _⟩ := h
  exact ⟨rfl, rfl, rfl, rfl⟩

theorem Granted.bits {pages : List Nat} {st' : KrPhysmemmgmtState} (h : Granted st pages st')
    (p : Nat) : bit st'.pPrimaryBitmap p = true ↔ bit st.pPrimaryBitmap p = true ∨ p ∈ pages := by
  obtain ⟨bm, pm, hint, rfl, hbits, _⟩ := h
  exact hbits p

/-- One page: either nothing was found and nothing changed, or the page was free and is
now taken. -/
theorem pmAcquirePage_cases (hs : WellSized st) (ht : TailSet st) (pageType hintID : Nat) :
    pmAcquirePage st pageType hintID = (IVLDPGID, st) ∨
    ∃ p, (pmAcquirePage st pageType hintID).1 = p ∧ p < st.nrPages ∧ pageFree st p = true ∧
      Granted st [p] (pmAcquirePage st pageType hintID).2 := by
  by_cases hstart : krIsValidPageID st (startPage st hintID) = true
  · have hpage : startPage st hintID < st.nrPages := (krIsValidPageID_iff.mp hstart).2
    obtain ⟨hret, hget, hnil, _, hgrant⟩ := pmAcquirePages_sparse (fun _ => IVLDPGID)
      pageType hs isSparse_sparse le_rfl hstart rfl
    have hone : ((offered st (startPage st hintID)).take 1).length ≤ 1 := List.length_take_le 1 _
    have hmem : ∀ p ∈ (offered st (startPage st hintID)).take 1,
        p < st.nrPages ∧ pageFree st p = true := by
      intro p hp
      have hp' := List.mem_of_mem_take hp
      rw [offered_eq hs ht hpage, List.mem_append] at hp'
      rcases hp' with hp' | hp'
      · exact (mem_searchOrder hpage.le).mp hp'
      · obtain ⟨hr, hf⟩ := mem_freeRange.mp hp'
        refine ⟨?_, hf⟩
        by_contra hge
        have hceil : byteCeil (startPage st hintID) ≤ 8 * st.bitmapSize := by
          have := hs.covers.1
          unfold byteCeil
          omega
        have hset := ht p (by omega) (by omega)
        rw [(pageFree_iff.mp hf).1] at hset
        exact absurd hset (by decide)
    unfold pmAcquirePage
    generalize (offered st (startPage st hintID)).take 1 = pages at *
    cases pages with
    | nil =>
      left
      dsimp only
      rw [hret, (hnil rfl).1, if_neg (by simp)]
    | cons p rest =>
      have hrest : rest = [] := List.eq_nil_of_length_eq_zero (by
        simp only [List.length_cons] at hone
        omega)
      subst hrest
      right
      have hp := hmem p List.mem_cons_self
      refine ⟨p, ?_, hp.1, hp.2, ?_⟩
      · dsimp only
        rw [hret, if_pos (by simp)]
        exact hget 0 (by simp)
      · exact hgrant (by simp) (by simp) fun q hq => (hmem q hq).1
  · left
    unfold pmAcquirePage
    rw [pmAcquirePages_invalid ((Bool.not_eq_true _).mp hstart)]
    simp

theorem pmAcquirePage_hint (hs : WellSized st) {p : Nat} (hp : p < st.nrPages)
    (hf : pageFree st p = true) (pageType : Nat) : (pmAcquirePage st pageType p).1 = p := by
  have hfit := hs.fits
  have hne : p ≠ IVLDPGID := by
    unfold IVLDPGID
    omega
  have hstart : startPage st p = p := by rw [startPage, if_neg hne]
  have hvalid : krIsValidPageID st (startPage st p) = true := by
    rw [hstart, krIsValidPageID_iff]
    exact ⟨hne, hp⟩
  have hcover := hs.covers.1
  have hhead : (offered st p).take 1 = [p] := by
    rw [offered, freeRange_cons (by omega), hf]
    simp
  obtain ⟨hret, hget, _⟩ := pmAcquirePages_sparse (fun _ => IVLDPGID) pageType hs
    isSparse_sparse le_rfl hvalid (by rw [hstart, hhead])
  unfold pmAcquirePage
  dsimp only
  rw [hret, if_pos (by simp)]
  exact hget 0 (by simp)

theorem pmRelinquishPage_basic (hstage : st.initStage = .basic) (hs : WellSized st) {p : Nat}
    (hp : p < st.nrPages) (hbit : bit st.pPrimaryBitmap p = true)
    (hres : krIsPhysicalPageReserved st p = false) :
    ∃ bm acquired, pmRelinquishPage st p =
      some (true, { st with pPrimaryBitmap := bm, acquiredPages := acquired }) ∧
      ∀ q, bit bm q = if q = p then false else bit st.pPrimaryBitmap q := by
  have hcover := hs.covers.1
  unfold pmRelinquishPage relinquishBit
  rw [hres, if_neg (by decide), if_neg (by simp [hstage]), if_neg (by omega), if_pos hbit]
  exact ⟨_, _, rfl, fun q => bit_update_markBit _ _ _ _⟩

/-- The manager as boot leaves it and every call keeps it. -/
structure PmmReady (st : KrPhysmemmgmtState) : Prop where
  stage : st.initStage = .basic
  sized : WellSized st
  tail : TailSet st

theorem Booted.ready {st : KrPhysmemmgmtState} (h : Booted st) : PmmReady st :=
  ⟨h.stage, h.sized, h.tailSet⟩

theorem pageFree_granted {st' : KrPhysmemmgmtState} {n : Nat} (hg : Granted st [n] st') (k : Nat) :
    pageFree st' k = true ↔ pageFree st k = true ∧ k ≠ n := by
  obtain ⟨_, h2, _, h4⟩ := hg.frame
  have hbits := hg.bits k
  rw [pageFree_iff, pageFree_iff, krIsPhysicalPageReserved_congr h2 h4 k,
    ← Bool.not_eq_true, hbits, ← Bool.not_eq_true (bit st.pPrimaryBitmap k), List.mem_singleton]
  tauto

theorem Granted.sized {st' : KrPhysmemmgmtState} {n : Nat} (hg : Granted st [n] st')
    (hs : WellSized st) : WellSized st' := by
  obtain ⟨_, h2, h3, _⟩ := hg.frame
  exact ⟨by rw [h2, h3]; exact hs.size, by rw [h2]; exact hs.fits⟩

theorem Granted.tail {st' : KrPhysmemmgmtState} {n : Nat} (hg : Granted st [n] st')
    (ht : TailSet st) : TailSet st' := by
  obtain ⟨_, h2, h3, _⟩ := hg.frame
  intro k h1 h4
  rw [h2] at h1
  rw [h3] at h4
  exact (hg.bits k).mpr (Or.inl (ht k h1 h4))

theorem PmmReady.granted {st' : KrPhysmemmgmtState} {n : Nat} (h : PmmReady st)
    (hg : Granted st [n] st') : PmmReady st' :=
  ⟨hg.frame.1.trans h.stage, hg.sized h.sized, hg.tail h.tail⟩

structure GivenBack (st : KrPhysmemmgmtState) (n : Nat) (st' : KrPhysmemmgmtState) : Prop where
  ready : PmmReady st'
  pages : st'.nrPages = st.nrPages
  advisory : st'.pAdvisoryBitmap = st.pAdvisoryBitmap
  free : ∀ k, pageFree st' k = true ↔ k = n ∨ pageFree st k = true

theorem PmmReady.relinquish (h : PmmReady st) {n : Nat} (hn : n < st.nrPages)
    (hbit : bit st.pPrimaryBitmap n = true) (hres : krIsPhysicalPageReserved st n = false) :
    ∃ st', pmRelinquishPage st n = some (true, st') ∧ GivenBack st n st' := by
  obtain ⟨bm, acquired, hcall, hbits⟩ := pmRelinquishPage_basic h.stage h.sized hn hbit hres
  refine ⟨_, hcall, ⟨h.stage, ⟨h.sized.size, h.sized.fits⟩, fun k h1 h2 => ?_⟩, rfl, rfl,
    fun k => ?_⟩
  · have hkn : k ≠ n := fun heq => absurd hn (by rw [← heq]; exact Nat.not_lt.mpr h1)
    exact (hbits k).trans ((if_neg hkn).trans (h.tail k h1 h2))
  · have hsame : krIsPhysicalPageReserved
        { st with pPrimaryBitmap := bm, acquiredPages := acquired } k =
        krIsPhysicalPageReserved st k := krIsPhysicalPageReserved_congr rfl rfl k
    rw [pageFree_iff, pageFree_iff, hsame, hbits]
    by_cases hkn : k = n
    · simp [hkn, hres]
    · simp [hkn]

/-- The manager and the pages its callers hold, one entry for each open acquisition. -/
abbrev Holding := KrPhysmemmgmtState × List Nat

inductive HoldStep : Holding → Holding → Prop where
  | acquire (st : KrPhysmemmgmtState) (held : List Nat) (pageType hintID : Nat) :
      HoldStep (st, held) ((pmAcquirePage st pageType hintID).2,
        if (pmAcquirePage st pageType hintID).1 = IVLDPGID then held
        else (pmAcquirePage st pageType hintID).1 :: held)
  | relinquish (st st' : KrPhysmemmgmtState) (held : List Nat) (p : Nat) (b : Bool) (hp : p ∈ held)
      (hr : pmRelinquishPage st p = some (b, st')) : HoldStep (st, held) (st', held.erase p)

structure HoldInv (x : Holding) : Prop where
  stage : x.1.initStage = .basic
  sized : WellSized x.1
  tail : TailSet x.1
  nodup : x.2.Nodup
  taken : ∀ p ∈ x.2, p < x.1.nrPages ∧ bit x.1.pPrimaryBitmap p = true ∧
    krIsPhysicalPageReserved x.1 p = false

/-- The abstract pool: every free page of the machine, and the same holders. -/
def poolOf (x : Holding) : Pool Nat :=
  { free := {p | p < x.1.nrPages ∧ pageFree x.1 p = true}, held := x.2 }

theorem holdStep_cases {x y : Holding} (hx : HoldInv x) (h : HoldStep x y) :
    y = x ∨
    (∃ p, p < x.1.nrPages ∧ pageFree x.1 p = true ∧ Granted x.1 [p] y.1 ∧ y.2 = p :: x.2) ∨
    (∃ p bm acquired, p ∈ x.2 ∧
      y = ({ x.1 with pPrimaryBitmap := bm, acquiredPages := acquired }, x.2.erase p) ∧
      ∀ q, bit bm q = if q = p then false else bit x.1.pPrimaryBitmap q) := by
  cases h with
  | acquire st held pageType hintID =>
    rcases pmAcquirePage_cases hx.sized hx.tail pageType hintID with hnone | ⟨p, hret, hp, hf, hg⟩
    · left
      dsimp only at hnone ⊢
      rw [hnone, if_pos rfl]
    · right
      left
      have hfit := hx.sized.fits
      have hne : p ≠ IVLDPGID := by
        unfold IVLDPGID
        omega
      refine ⟨p, hp, hf, hg, ?_⟩
      dsimp only at hret ⊢
      rw [hret, if_neg hne]
  | relinquish st st' held p b hp hr =>
    right
    right
    obtain ⟨hlt, hbit, hres⟩ := hx.taken p hp
    obtain ⟨bm, acquired, heq, hbits⟩ := pmRelinquishPage_basic hx.stage hx.sized hlt hbit hres
    rw [heq] at hr
    simp only [Option.some.injEq, Prod.mk.injEq] at hr
    exact ⟨p, bm, acquired, hp, by rw [← hr.2], hbits⟩

theorem HoldInv.step {x y : Holding} (hx : HoldInv x) (h : HoldStep x y) : HoldInv y := by
  rcases holdStep_cases hx h with rfl | ⟨p, hp, hf, hg, hheld⟩ | ⟨p, bm, acquired, hp, rfl, hbits⟩
  · exact hx
  · obtain ⟨h1, h2, _, h4⟩ := hg.frame
    obtain ⟨hclear, hres⟩ := pageFree_iff.mp hf
    refine ⟨h1.trans hx.stage, hg.sized hx.sized, hg.tail hx.tail, ?_, fun q hq => ?_⟩
    · rw [hheld]
      refine List.nodup_cons.mpr ⟨fun hm => ?_, hx.nodup⟩
      have htaken := (hx.taken p hm).2.1
      rw [hclear] at htaken
      exact absurd htaken (by decide)
    · rw [h2, krIsPhysicalPageReserved_congr h2 h4 q]
      rw [hheld] at hq
      rcases List.mem_cons.mp hq with rfl | hq
      · exact ⟨hp, (hg.bits q).mpr (Or.inr List.mem_cons_self), hres⟩
      · obtain ⟨k1, k2, k3⟩ := hx.taken q hq
        exact ⟨k1, (hg.bits q).mpr (Or.inl k2), k3⟩
  · refine ⟨hx.stage, ⟨hx.sized.size, hx.sized.fits⟩, fun q hq1 hq2 => ?_, hx.nodup.erase p,
      fun q hq => ?_⟩
    · dsimp only at hq1 hq2 ⊢
      have hne : q ≠ p := by
        have := (hx.taken p hp).1
        omega
      rw [hbits q, if_neg hne]
      exact hx.tail q hq1 hq2
    · obtain ⟨hne, hq⟩ := (List.Nodup.mem_erase_iff hx.nodup).mp hq
      obtain ⟨k1, k2, k3⟩ := hx.taken q hq
      dsimp only
      rw [hbits q, if_neg hne]
      exact ⟨k1, k2, k3⟩

/-- Each call is one step of the pool, or changes nothing. -/
theorem holdStep_refines {x y : Holding} (hx : HoldInv x) (h : HoldStep x y) :
    Run Ownership.Step (poolOf x) (poolOf y) := by
  rcases holdStep_cases hx h with rfl | ⟨p, hp, hf, hg, hheld⟩ | ⟨p, bm, acquired, hp, rfl, hbits⟩
  · exact Relation.ReflTransGen.refl
  · have h2 := hg.frame.2.1
    have hstep := Ownership.Step.acquire (poolOf x) p ⟨hp, hf⟩
    have heq : poolOf y = { free := {q | q ∈ (poolOf x).free ∧ q ≠ p}, held := p :: x.2 } := by
      have hfree := pageFree_granted hg
      simp only [poolOf, hheld, Pool.mk.injEq, and_true]
      ext q
      simp only [Set.mem_ofPred_eq, h2, hfree q, and_assoc]
    rw [heq]
    exact Relation.ReflTransGen.single hstep
  · have hstep := Ownership.Step.relinquish (poolOf x) p hp
    obtain ⟨hlt, _, hres⟩ := hx.taken p hp
    have heq : poolOf ({ x.1 with pPrimaryBitmap := bm, acquiredPages := acquired }, x.2.erase p) =
        { free := insert p (poolOf x).free, held := x.2.erase p } := by
      simp only [poolOf, Pool.mk.injEq, and_true]
      ext q
      have hr : krIsPhysicalPageReserved
          { x.1 with pPrimaryBitmap := bm, acquiredPages := acquired } q =
          krIsPhysicalPageReserved x.1 q := krIsPhysicalPageReserved_congr rfl rfl q
      simp only [Set.mem_ofPred_eq, Set.mem_insert_iff, pageFree_iff, hr, hbits q]
      by_cases hq : q = p
      · subst hq
        simp [hlt, hres]
      · simp [hq]
    rw [heq]
    exact Relation.ReflTransGen.single hstep

theorem Booted.holdInv (h : Booted st) : HoldInv (st, []) :=
  ⟨h.stage, h.sized, h.tailSet, List.nodup_nil, fun _ hp => absurd hp List.not_mem_nil⟩

theorem hold_refines_pool {st₀ : KrPhysmemmgmtState} {x : Holding} (h₀ : PostInit st₀)
    (h : Run HoldStep (st₀, []) x) : Run Ownership.Step (poolOf (st₀, [])) (poolOf x) :=
  Run.simulation poolOf (fun _ _ hs hstep => hs.step hstep)
    (fun _ _ hs hstep => holdStep_refines hs hstep) h h₀.booted.holdInv

/-- No page is held twice: what an acquisition returns is valid, unreserved and in nobody's
hands, and a page given back can be acquired again. -/
theorem pages_held_once {st₀ st : KrPhysmemmgmtState} {held : List Nat} (h₀ : PostInit st₀)
    (h : Run HoldStep (st₀, []) (st, held)) :
    held.Nodup ∧
    (∀ pageType hintID, (pmAcquirePage st pageType hintID).1 = IVLDPGID ∨
      krIsValidPageID st (pmAcquirePage st pageType hintID).1 = true ∧
      krIsPhysicalPageReserved st (pmAcquirePage st pageType hintID).1 = false ∧
      (pmAcquirePage st pageType hintID).1 ∉ held) ∧
    (∀ p ∈ held, ∃ st', pmRelinquishPage st p = some (true, st') ∧
      ∀ pageType, (pmAcquirePage st' pageType p).1 = p) := by
  have hinv : HoldInv (st, held) :=
    Run.invariant (fun _ _ hs hstep => hs.step hstep) h h₀.booted.holdInv
  have hexcl : Exclusive (poolOf (st, held)) :=
    run_exclusive (hold_refines_pool h₀ h) ⟨List.nodup_nil, fun _ hp => absurd hp List.not_mem_nil⟩
  refine ⟨hexcl.nodup, fun pageType hintID => ?_, fun p hp => ?_⟩
  · rcases pmAcquirePage_cases hinv.sized hinv.tail pageType hintID with hnone | ⟨p, hret, hp, hf, _⟩
    · left
      rw [hnone]
    · right
      rw [hret, krIsValidPageID_iff]
      have hfit := hinv.sized.fits
      refine ⟨⟨?_, hp⟩, (pageFree_iff.mp hf).2, fun hm => hexcl.apart p hm ⟨hp, hf⟩⟩
      unfold IVLDPGID
      dsimp only at hp hfit
      omega
  · obtain ⟨hlt, hbit, hres⟩ := hinv.taken p hp
    obtain ⟨bm, acquired, heq, hbits⟩ := pmRelinquishPage_basic hinv.stage hinv.sized hlt hbit hres
    refine ⟨_, heq, fun pageType => ?_⟩
    have hs : WellSized { st with pPrimaryBitmap := bm, acquiredPages := acquired } :=
      ⟨hinv.sized.size, hinv.sized.fits⟩
    refine pmAcquirePage_hint hs hlt ?_ pageType
    have hr : krIsPhysicalPageReserved
        { st with pPrimaryBitmap := bm, acquiredPages := acquired } p =
        krIsPhysicalPageReserved st p := krIsPhysicalPageReserved_congr rfl rfl p
    rw [pageFree_iff, hr]
    exact ⟨by rw [hbits p, if_pos rfl], hres⟩

def smallMaps : KrMemoryMaps :=
  { memoryMap := [⟨0, 264, 0, KR_MEMORY_TYPE_CONVENTIONAL_MEMORY, 0⟩]
    canonicalMemoryMap := [⟨0, 264, 0, KR_MEMORY_TYPE_CONVENTIONAL_MEMORY, 0⟩]
    loadInfo := ⟨0, 0, 0⟩ }

def smallBoot : KrPhysmemmgmtState :=
  (krInitPhysmemmgmt zeroState smallMaps (fun _ => 0#8) ⟨4096, 4096, 8192⟩).2.1

theorem eq_of_succeeded {x : Bool × KrPhysmemmgmtState × Arena} (h : x.1 = true) :
    x = (true, x.2.1, x.2.2) := by
  rw [← h]

theorem postInit_smallBoot : PostInit smallBoot := by
  unfold smallBoot
  refine ⟨smallMaps, fun _ => 0#8, ⟨4096, 4096, 8192⟩, _, ?_, by decide +kernel,
    eq_of_succeeded (by decide +kernel)⟩
  intro d hd
  rw [List.mem_singleton.mp hd]
  decide

theorem pages_held_once_smallBoot :
    (pmAcquirePage smallBoot 1 IVLDPGID).1 = 256 ∧
    ∃ st', pmRelinquishPage (pmAcquirePage smallBoot 1 IVLDPGID).2 256 = some (true, st') ∧
      ∀ pageType, (pmAcquirePage st' pageType 256).1 = 256 := by
  have hret : (pmAcquirePage smallBoot 1 IVLDPGID).1 = 256 := by decide +kernel
  have hstep := HoldStep.acquire smallBoot [] 1 IVLDPGID
  rw [hret, if_neg (by decide)] at hstep
  have h := pages_held_once postInit_smallBoot (Relation.ReflTransGen.single hstep)
  exact ⟨hret, h.2.2 256 List.mem_cons_self⟩

end Ych.Physmemmgmt
