import Ych.Memory.AcquireHint
import Ych.Memory.DirectMap
import Ych.Memory.DmapStops
import Ych.Memory.EvictedPages
import Ych.Memory.PhysmemInit

/-! The direct map when the arena is exhausted: the structures that follow are pages that the
physical memory manager gives, and they have to be mapped already. -/
namespace Ych.Virtmemmgmt
open Words BootstrapArena PageTree PAT Physmemmgmt PTE Bootelvt

variable {d : DmapLayout} {s s₁ : DmapState} {n k limit : Nat} {b : Block} {bs : List Block}

/-- What the boot has made before the direct map: besides what it needs, the structures lie in the
load area, and the memory manager is as its initialisation leaves it. -/
structure DmapBooted (d : DmapLayout) (s : DmapState) : Prop extends DmapReady d s where
  structs : ∀ q t, descend slot s.paging.tables 4 (cr3 d) q = some t →
    d.maps.loadInfo.addrPhysicalBase ≤ t ∧
      t + KR_PAGE_SIZE ≤ d.maps.loadInfo.addrPhysicalBase + d.maps.loadInfo.reserveSize
  pmm : ∃ mem arena arena',
    krInitPhysmemmgmt zeroState d.maps mem arena = (true, s.paging.vmm.pmm, arena')

def pageAfter (s : DmapState) (k : Nat) : Nat := evictedPage s.paging.vmm.pmm k

/-- Every page that becomes a structure is below 4 GiB, not the kernel's own, and in a block that
is mapped before the one that needs the structure. The pages are those the map leaves free, in the
order they are given; `room` is the number of structures the arena has. -/
def SuppliedInTime (d : DmapLayout) (room : Nat) : Prop :=
  ∀ done b k p, done ++ [b] <+: dmapBlocks d → (tablesOf done).card ≤ room + k →
    room + k < (tablesOf (done ++ [b])).card → (bootPages d.maps)[k]? = some p →
    p < 2 ^ 20 ∧ ¬InKernel d.maps p ∧ Covered done (p * KR_PAGE_SIZE)

/-- No page that is needed lies above 4 GiB or in the kernel's own area. -/
def PagesUsable (d : DmapLayout) (room : Nat) : Prop :=
  ∀ k p, room + k < (tablesOf (dmapBlocks d)).card → (bootPages d.maps)[k]? = some p →
    p < 2 ^ 20 ∧ ¬InKernel d.maps p

section blocks

theorem exists_needs (h : n < (tablesOf bs).card) : ∃ done b, done ++ [b] <+: bs ∧
    (tablesOf done).card ≤ n ∧ n < (tablesOf (done ++ [b])).card := by
  induction bs using List.reverseRecOn with
  | nil => exact absurd h (Nat.not_lt_zero n)
  | append_singleton bs b ih =>
    by_cases hn : n < (tablesOf bs).card
    · obtain ⟨done, c, hpre, hle, hlt⟩ := ih hn
      exact ⟨done, c, hpre.trans (List.prefix_append _ _), hle, hlt⟩
    · exact ⟨bs, b, List.prefix_rfl, Nat.le_of_not_lt hn, h⟩

theorem card_tablesOf_lt (h : ∀ b ∈ bs, b.start < dmapSpan) : (tablesOf bs).card < 2 ^ 28 := by
  have hsub : tablesOf bs ⊆
      ((Finset.Icc 1 3) ×ˢ (Finset.range (2 ^ 26))).image fun x => (⟨x.1, x.2⟩ : Block) := by
    intro c hc
    obtain ⟨b, hb, hc⟩ := mem_tablesOf.mp hc
    obtain ⟨h1, h3, hindex⟩ := mem_tables.mp hc
    have hstart := h b hb
    unfold dmapSpan at hstart
    have hshift : 2 ^ 21 ≤ 2 ^ levelShift c.level :=
      Nat.pow_le_pow_right (by decide) (by unfold levelShift; omega)
    have hle : b.start / 2 ^ levelShift c.level ≤ b.start / 2 ^ 21 :=
      Nat.div_le_div_left hshift (by decide)
    rw [Finset.mem_image]
    refine ⟨(c.level, c.index), ?_, rfl⟩
    rw [Finset.mem_product, Finset.mem_Icc, Finset.mem_range]
    exact ⟨⟨by omega, h3⟩, by rw [hindex]; omega⟩
  refine ((Finset.card_le_card hsub).trans Finset.card_image_le).trans_lt ?_
  rw [Finset.card_product, Nat.card_Icc, Finset.card_range]
  decide

end blocks

section stock

theorem DmapBooted.supply (hmaps : DmapFits d) (h : DmapBooted d s) :
    PmmReady s.paging.vmm.pmm ∧ supply s.paging.vmm.pmm = bootPages d.maps := by
  obtain ⟨mem, arena, arena', hinit⟩ := h.pmm
  have hreserve : d.maps.loadInfo.reserveSize < 2 ^ 64 := by
    have hphys := h.phys
    omega
  have hbelow : ∀ r ∈ d.maps.canonicalMemoryMap,
      r.physicalBase + r.pageCount * KR_PAGE_SIZE ≤ 2 ^ 64 := by
    intro r hr
    have hbelow := hmaps.below r (List.mem_append_left _ hr)
    unfold dmapSpan at hbelow
    omega
  have hbooted : Booted s.paging.vmm.pmm :=
    PostInit.booted ⟨d.maps, mem, arena, arena', hbelow, hreserve, hinit⟩
  exact ⟨hbooted.ready, supply_boot hbelow hreserve hinit⟩

theorem DmapBooted.pmmReady (hmaps : DmapFits d) (h : DmapBooted d s) :
    PmmReady s.paging.vmm.pmm := (h.supply hmaps).1

theorem DmapBooted.pageAfter_eq (hmaps : DmapFits d) (h : DmapBooted d s) (k : Nat) :
    pageAfter s k = (bootPages d.maps)[k]?.getD IVLDPGID := by
  obtain ⟨hready, hsupply⟩ := h.supply hmaps
  rw [pageAfter, evictedPage_eq hready, hsupply, List.getD_eq_getElem?_getD]

theorem DmapBooted.some_of_ne (hmaps : DmapFits d) (h : DmapBooted d s)
    (hsome : pageAfter s k ≠ IVLDPGID) : (bootPages d.maps)[k]? = some (pageAfter s k) := by
  have heq := h.pageAfter_eq hmaps k
  cases hget : (bootPages d.maps)[k]? with
  | none =>
    rw [hget] at heq
    exact absurd heq hsome
  | some p =>
    rw [hget] at heq
    rw [heq]
    rfl

def PagesGood (d : DmapLayout) (s : DmapState) (limit : Nat) : Prop :=
  ∀ k, arenaRoom s.arena + k < limit → pageAfter s k ≠ IVLDPGID ∧ pageAfter s k < 2 ^ 20 ∧
    ¬InKernel d.maps (pageAfter s k)

theorem PagesGood.spec (h : PagesGood d s limit) (hready : PmmReady s.paging.vmm.pmm)
    (hk : arenaRoom s.arena + k < limit) :
    pageAfter s k < s.paging.vmm.pmm.nrPages ∧ ∀ j < k, pageAfter s k ≠ pageAfter s j := by
  obtain ⟨h1, _, h2⟩ := evictedPage_spec (k := k) hready fun j hj => (h j (by omega)).1
  exact ⟨h1, h2⟩

theorem PagesGood.inj (h : PagesGood d s limit) (hready : PmmReady s.paging.vmm.pmm) {j : Nat}
    (hk : arenaRoom s.arena + k < limit) (hj : arenaRoom s.arena + j < limit)
    (heq : pageAfter s k = pageAfter s j) : k = j := by
  obtain hlt | hsame | hgt := Nat.lt_trichotomy k j
  · exact absurd heq.symm ((h.spec hready hj).2 k hlt)
  · exact hsame
  · exact absurd heq ((h.spec hready hk).2 j hgt)

theorem PagesGood.pmm (h : PagesGood d s limit) (hready : PmmReady s.paging.vmm.pmm)
    (hk : arenaRoom s.arena + k ≤ limit) : PmmReady (evictedPmm s.paging.vmm.pmm k) ∧
      (evictedPmm s.paging.vmm.pmm k).nrPages = s.paging.vmm.pmm.nrPages := by
  obtain ⟨h1, h2, _⟩ := evictedPmm_ready (k := k) hready fun j hj => (h j (by omega)).1
  exact ⟨h1, h2⟩

theorem PagesGood.address (h : PagesGood d s limit) (hready : PmmReady s.paging.vmm.pmm)
    (hk : arenaRoom s.arena + k < limit) {pmm : KrPhysmemmgmtState}
    (hpmm : pmm.nrPages = s.paging.vmm.pmm.nrPages) :
    krGetPhysicalPageAddress pmm (pageAfter s k) = pageAfter s k * KR_PAGE_SIZE := by
  rw [krGetPhysicalPageAddress_congr hpmm,
    krGetPhysicalPageAddress_exact (hready.valid (h.spec hready hk).1)]
  exact (h k hk).2.1

def evictedStruct (d : DmapLayout) (s : DmapState) (n : Nat) : Nat :=
  if n < arenaRoom s.arena then
    krReservedVirtToPhys d.maps.loadInfo (arenaStart s.arena) + n * KR_PAGE_SIZE
  else pageAfter s (n - arenaRoom s.arena) * KR_PAGE_SIZE

def pageContext (d : DmapLayout) (a : Arena) (page n : Nat) : KrDirectMappingContext :=
  { startContext d a with
    workingBase := virtAddrBase + page * KR_PAGE_SIZE
    workingCur := virtAddrBase + page * KR_PAGE_SIZE
    lastAcqPageID := page
    numTotalAcqPageStructs := n }

def evictedContext (d : DmapLayout) (s : DmapState) (n : Nat) : KrDirectMappingContext :=
  if n ≤ arenaRoom s.arena then arenaContext d s.arena n
  else pageContext d s.arena (pageAfter s (n - 1 - arenaRoom s.arena)) n

theorem evictedContext_arena (hn : n ≤ arenaRoom s.arena) :
    evictedContext d s n = arenaContext d s.arena n := if_pos hn

theorem evictedContext_page (hn : arenaRoom s.arena ≤ n) : evictedContext d s (n + 1) =
    pageContext d s.arena (pageAfter s (n - arenaRoom s.arena)) (n + 1) :=
  if_neg (Nat.not_le_of_lt (Nat.lt_succ_of_le hn))

theorem evictedContext_counts (d : DmapLayout) (s : DmapState) (n : Nat) :
    (evictedContext d s n).numTotalAcqPageStructs = n ∧
      (evictedContext d s n).numBarenaMaxStructs = arenaRoom s.arena ∧
      (evictedContext d s n).physAddrBarenaBase = (startContext d s.arena).physAddrBarenaBase := by
  unfold evictedContext
  split <;> exact ⟨rfl, rfl, rfl⟩

theorem outside_arena (h : DmapReady d s) {p : Nat} (hp : ¬InKernel d.maps p)
    (hn : n < arenaRoom s.arena) :
    p * KR_PAGE_SIZE ≠
      krReservedVirtToPhys d.maps.loadInfo (arenaStart s.arena) + n * KR_PAGE_SIZE := by
  intro heq
  obtain ⟨h1, h2⟩ := h.page hn
  have h3 := h.arenaEnd
  have hpos : 0 < KR_PAGE_SIZE := by decide
  rw [h.structPhys hn, h.virtToPhys h1 (by omega)] at heq
  unfold InKernel at hp
  omega

def evictedStock (hfits : DmapFits d) (h : DmapBooted d s) (hgood : PagesGood d s limit)
    (hroom : arenaRoom s.arena ≤ limit) : Stock where
  struct := evictedStruct d s
  ctx := evictedContext d s
  pmm n := evictedPmm s.paging.vmm.pmm (n - arenaRoom s.arena)
  zeroed := arenaRoom s.arena
  limit := limit
  last n hn := by
    unfold evictedStruct
    by_cases hlt : n < arenaRoom s.arena
    · rw [if_pos hlt, evictedContext_arena hlt]
      exact arenaContext_last h.toDmapReady hlt _
    · have hready := h.pmmReady hfits
      have hk : arenaRoom s.arena + (n - arenaRoom s.arena) < limit := by omega
      have hpages := (hgood.pmm hready (k := n + 1 - arenaRoom s.arena) (by omega)).2
      rw [if_neg hlt, evictedContext_page (Nat.le_of_not_lt hlt)]
      unfold krdmiGetPhysicalOfLastPageStruct pageContext startContext
      dsimp only
      rw [if_neg (by exact hlt), hgood.address hready hk hpages]
  aligned n hn := by
    unfold evictedStruct
    by_cases hlt : n < arenaRoom s.arena
    · rw [if_pos hlt]
      exact (h.structBacked hlt).1
    · rw [if_neg hlt]
      exact Nat.dvd_mul_left _ _
  lt n hn := by
    unfold evictedStruct
    by_cases hlt : n < arenaRoom s.arena
    · rw [if_pos hlt]
      exact Nat.lt_of_lt_of_le (Nat.lt_add_of_pos_right (by decide)) (h.structBound hlt)
    · rw [if_neg hlt]
      have := (hgood (n - arenaRoom s.arena) (by omega)).2.1
      unfold KR_PAGE_SIZE
      omega
  inj n hn m hm heq := by
    have hpage : KR_PAGE_SIZE ≠ 0 := by decide
    unfold evictedStruct at heq
    by_cases h1 : n < arenaRoom s.arena
    · by_cases h2 : m < arenaRoom s.arena
      · rw [if_pos h1, if_pos h2] at heq
        exact Nat.eq_of_mul_eq_mul_right (by decide) (Nat.add_left_cancel heq)
      · rw [if_pos h1, if_neg h2] at heq
        have hout := (hgood (m - arenaRoom s.arena) (by omega)).2.2
        exact absurd heq.symm (outside_arena h.toDmapReady hout h1)
    · by_cases h2 : m < arenaRoom s.arena
      · rw [if_neg h1, if_pos h2] at heq
        have hout := (hgood (n - arenaRoom s.arena) (by omega)).2.2
        exact absurd heq (outside_arena h.toDmapReady hout h2)
      · rw [if_neg h1, if_neg h2] at heq
        have hsame := Nat.eq_of_mul_eq_mul_right (Nat.pos_of_ne_zero hpage) heq
        have := hgood.inj (h.pmmReady hfits) (by omega) (by omega) hsame
        omega
  zeroed_le := hroom

end stock

section acquire

theorem krdmiAcquirePageStruct_null (hn : arenaRoom s.arena ≤ n)
    (hctx : s₁.ctx = evictedContext d s n)
    (hpmm : s₁.paging.vmm.pmm = evictedPmm s.paging.vmm.pmm (n - arenaRoom s.arena))
    (hnone : pageAfter s (n - arenaRoom s.arena) = IVLDPGID) :
    ∃ s', krdmiAcquirePageStruct d s₁ = .ok (0, s') := by
  obtain ⟨h1, h2, _⟩ := evictedContext_counts d s n
  have hpage : (pmAcquirePage s₁.paging.vmm.pmm PAGE_TYPE_PAGE_STRUCT IVLDPGID).1 = IVLDPGID := by
    rw [hpmm, ← evictedNext_page]
    exact hnone
  unfold krdmiAcquirePageStruct
  dsimp only
  rw [hctx, h1, h2, if_neg (Nat.not_lt.mpr hn), if_pos hpage]
  exact ⟨_, rfl⟩

theorem krdmiAcquirePageStruct_page {page : Nat} (hn : arenaRoom s.arena ≤ n)
    (hsmall : n + 1 < 2 ^ 32) (hctx : s₁.ctx = evictedContext d s n)
    (hpmm : s₁.paging.vmm.pmm = evictedPmm s.paging.vmm.pmm (n - arenaRoom s.arena))
    (hpage : pageAfter s (n - arenaRoom s.arena) = page) (hsome : page ≠ IVLDPGID)
    (haddr : krGetPhysicalPageAddress (evictedPmm s.paging.vmm.pmm (n + 1 - arenaRoom s.arena)) page =
      page * KR_PAGE_SIZE) (hlt : page < 2 ^ 20) :
    krdmiAcquirePageStruct d s₁ =
      match zeroPages d (virtAddrBase + page * KR_PAGE_SIZE) 1
          (setPmm s₁.paging (evictedPmm s.paging.vmm.pmm (n + 1 - arenaRoom s.arena))) with
      | .error e => .error e
      | .ok paging => .ok (virtAddrBase + page * KR_PAGE_SIZE, { s₁ with
          paging
          ctx := evictedContext d s (n + 1) }) := by
  obtain ⟨h1, h2, h3⟩ := evictedContext_counts d s n
  have hnext : n + 1 - arenaRoom s.arena = n - arenaRoom s.arena + 1 := by omega
  have hret : (pmAcquirePage s₁.paging.vmm.pmm PAGE_TYPE_PAGE_STRUCT IVLDPGID).1 = page := by
    rw [hpmm, ← hpage]
    exact (evictedNext_page _).symm
  have hleft : (krReservePhysicalPage
      (pmAcquirePage s₁.paging.vmm.pmm PAGE_TYPE_PAGE_STRUCT IVLDPGID).2 page).2 =
      evictedPmm s.paging.vmm.pmm (n + 1 - arenaRoom s.arena) := by
    rw [hnext, evictedPmm, ← hpmm, evictedNext, hret, if_neg hsome]
  have hwrap : wrap64 (virtAddrBase + page * KR_PAGE_SIZE) = virtAddrBase + page * KR_PAGE_SIZE := by
    rw [virtAddrBase_eq]
    unfold KR_PAGE_SIZE
    exact wrap64_of_lt (by omega)
  rw [evictedContext_page hn, hpage]
  unfold krdmiAcquirePageStruct
  dsimp only
  rw [hret, hleft, haddr, hwrap, hctx, h1, h2, if_neg (Nat.not_lt.mpr hn), if_neg hsome, h3,
    wrap32_of_lt hsmall]
  rfl

theorem zeroPage_backed {x : PagingState} {vt t : Nat} (h : Backed d x vt t) :
    zeroPages d vt 1 x = .ok { x with tables := Function.update x.tables t fun _ => 0 } := by
  obtain ⟨hphys, hpage, _⟩ := h.entry (show 0 < 512 by decide)
  rw [Nat.mul_zero, Nat.add_zero] at hphys hpage
  rw [zeroPages, zeroPages]
  dsimp only
  rw [Nat.zero_mul, Nat.add_zero, hphys]
  dsimp only
  rw [Nat.add_zero, hpage]

theorem zeroPage_unmapped {x : PagingState} {vt : Nat} (h : physOf d x (wrap64 vt) = none) :
    zeroPages d vt 1 x = .error .pageFault := by
  rw [zeroPages, zeroPages]
  dsimp only
  rw [Nat.zero_mul, Nat.add_zero, h]

variable {stk : Stock} {T : Finset Block} {a : Nat}

theorem DmapInv.backed_covered (h : DmapInv d stk s₁ bs T s) (hspan : a < 2 ^ 44)
    (hdvd : KR_PAGE_SIZE ∣ a) (hcov : Covered bs a) : Backed d s.paging (virtAddrBase + a) a := by
  obtain ⟨b, hb, ha⟩ := hcov
  refine ⟨hdvd, fun o ho => ?_⟩
  have hpage : KR_PAGE_SIZE = 2 ^ levelShift 0 := rfl
  have hhold : b.Holds (a + o) := by
    obtain ⟨c, hc⟩ := pow_levelShift_dvd (Nat.zero_le b.level)
    obtain ⟨m, rfl⟩ := hdvd
    have hzero : o / 2 ^ levelShift 0 = 0 := Nat.div_eq_of_lt ho
    have hsame : (2 ^ levelShift 0 * m + o) / 2 ^ levelShift 0 = 2 ^ levelShift 0 * m / 2 ^ levelShift 0 := by
      rw [Nat.mul_add_div (Nat.two_pow_pos _), Nat.mul_div_cancel_left _ (Nat.two_pow_pos _),
        hzero, Nat.add_zero]
    unfold Block.Holds at ha ⊢
    rw [← ha, hc, hpage, ← Nat.div_div_eq_div_mul, ← Nat.div_div_eq_div_mul, hsame]
  have hin : a + o < dmapSpan := by
    unfold dmapSpan
    unfold KR_PAGE_SIZE at ho
    omega
  have hwrap : wrap64 (virtAddrBase + a + o) = virtAddrBase + (a + o) := by
    unfold dmapSpan at hin
    rw [virtAddrBase_eq, Nat.add_assoc, wrap64_of_lt (by omega)]
  obtain ⟨e, he, hphys⟩ := h.tables.mapped b hb _ hhold
  rw [hwrap, physOf, translation_of_canonical (canonical_dmap hin), he, Option.map_some, hphys]

theorem DmapInv.unmapped (h : DmapInv d stk s₁ bs T s) (ha : a < dmapSpan) (hcov : ¬Covered bs a) :
    physOf d s.paging (wrap64 (virtAddrBase + a)) = none := by
  have hwrap : wrap64 (virtAddrBase + a) = virtAddrBase + a := by
    unfold dmapSpan at ha
    rw [virtAddrBase_eq, wrap64_of_lt (by omega)]
  rw [hwrap, physOf, translation_of_canonical (canonical_dmap ha), h.tables.unmapped a ha hcov]
  rfl

end acquire

section supplies
variable {s₀ : DmapState}

theorem DmapReady.pageVirt (h : DmapReady d s) (hs : Started d s s₀) {p : Nat}
    (hp : ¬InKernel d.maps p) (hlt : p < 2 ^ 20) :
    krdmiGetVirtualOfPTE d s₀.arena (p * KR_PAGE_SIZE) = virtAddrBase + p * KR_PAGE_SIZE := by
  have h1 := h.arenaBase
  have h2 := h.arenaPtr
  have h3 := h.arenaStop
  have h4 := h.arenaEnd
  unfold krdmiGetVirtualOfPTE
  dsimp only
  rw [hs.arena]
  dsimp only
  rw [h.virtToPhys h1 (by omega), h.virtToPhys (by omega) h4, if_neg, virtAddrBase_eq]
  · unfold KR_PAGE_SIZE
    exact wrap64_of_lt (by omega)
  · unfold InKernel at hp
    omega

theorem evicted_supplies (hfits : DmapFits d) (h : DmapBooted d s) (hs : Started d s s₀)
    (hgood : PagesGood d s limit) (hroom : arenaRoom s.arena ≤ limit)
    (hn : arenaRoom s.arena ≤ n) (hlim : n < limit) (hsmall : n + 1 < 2 ^ 32)
    (hcov : Covered bs (pageAfter s (n - arenaRoom s.arena) * KR_PAGE_SIZE)) :
    Supplies d (evictedStock hfits h hgood hroom) s₀ bs n := by
  have hk : arenaRoom s.arena + (n - arenaRoom s.arena) < limit := by omega
  obtain ⟨hsome, hlow, hout⟩ := hgood _ hk
  have hready := h.pmmReady hfits
  have hpages := (hgood.pmm hready (k := n + 1 - arenaRoom s.arena) (by omega)).2
  have haddr := hgood.address hready hk hpages
  have hstruct : (evictedStock hfits h hgood hroom).struct n =
      pageAfter s (n - arenaRoom s.arena) * KR_PAGE_SIZE := if_neg (Nat.not_lt.mpr hn)
  have hvirt := h.toDmapReady.pageVirt hs hout hlow
  have h44 : pageAfter s (n - arenaRoom s.arena) * KR_PAGE_SIZE < 2 ^ 44 := by
    unfold KR_PAGE_SIZE
    omega
  rw [← hstruct] at hvirt hcov h44
  refine ⟨hlim, ?_, fun T s' hinv _ => ?_, fun T s' hinv hcard => ?_⟩
  · rw [hvirt, virtAddrBase_eq]
    omega
  · rw [hvirt]
    exact hinv.backed_covered h44 (hstruct ▸ Nat.dvd_mul_left _ _) hcov
  · have hback := hinv.backed_covered h44 (hstruct ▸ Nat.dvd_mul_left _ _) hcov
    have hctx := hinv.ctx
    have hpmm := hinv.pmm
    rw [hcard] at hctx hpmm
    rw [hvirt, hstruct, krdmiAcquirePageStruct_page hn hsmall hctx hpmm rfl hsome haddr hlow,
      zeroPage_backed]
    · rfl
    · rw [← hstruct]
      exact hback.mono fun q l hq => hq

end supplies

section run
variable {s₀ : DmapState}

theorem evicted_inv (hfits : DmapFits d) (h : DmapBooted d s) (hs : Started d s s₀)
    (hgood : PagesGood d s limit) (hroom : arenaRoom s.arena ≤ limit) :
    DmapInv d (evictedStock hfits h hgood hroom) s₀ [] (tablesOf []) s₀ := by
  have hzero : 0 - arenaRoom s.arena = 0 := Nat.zero_sub _
  refine hs.inv h.toDmapReady ?_ ?_ (fun n hn => ⟨n, hn, if_pos hn⟩) fun n hn q hq => ?_
  · exact (arenaContext_zero d s.arena).trans hs.ctx.symm
  · change evictedPmm s.paging.vmm.pmm (0 - arenaRoom s.arena) = _
    rw [hzero]
    rfl
  · by_cases hlt : n < arenaRoom s.arena
    · have hstruct : (evictedStock hfits h hgood hroom).struct n =
          krReservedVirtToPhys d.maps.loadInfo (arenaStart s.arena) + n * KR_PAGE_SIZE := if_pos hlt
      exact h.structFresh hlt q (hq.trans (congrArg some hstruct))
    · have hstruct : (evictedStock hfits h hgood hroom).struct n =
          pageAfter s (n - arenaRoom s.arena) * KR_PAGE_SIZE := if_neg hlt
      have hin := h.structs q _ hq
      have hn' : n < limit := hn
      have hout := (hgood (n - arenaRoom s.arena) (by omega)).2.2
      have hpos : 0 < KR_PAGE_SIZE := by decide
      rw [hstruct] at hin
      unfold InKernel at hout
      omega

theorem evicted_supplies_arena (hfits : DmapFits d) (h : DmapBooted d s) (hs : Started d s s₀)
    (hgood : PagesGood d s limit) (hroom : arenaRoom s.arena ≤ limit) (hn : n < arenaRoom s.arena) :
    Supplies d (evictedStock hfits h hgood hroom) s₀ bs n := by
  refine hs.supplies h.toDmapReady hn hn (if_pos hn) (fun m hm => evictedContext_arena hm) ?_
  change evictedPmm _ (n + 1 - arenaRoom s.arena) = evictedPmm _ (n - arenaRoom s.arena)
  rw [Nat.sub_eq_zero_of_le hn, Nat.sub_eq_zero_of_le hn.le]

def CoveredBefore (d : DmapLayout) (s : DmapState) (limit : Nat) : Prop :=
  ∀ done b k, done ++ [b] <+: dmapBlocks d → (tablesOf done).card ≤ arenaRoom s.arena + k →
    arenaRoom s.arena + k < (tablesOf (done ++ [b])).card → arenaRoom s.arena + k < limit →
    Covered done (pageAfter s k * KR_PAGE_SIZE)

theorem supplies_before (hfits : DmapFits d) (h : DmapBooted d s) (hs : Started d s s₀)
    (hgood : PagesGood d s limit) (hroom : arenaRoom s.arena ≤ limit)
    (hcovered : CoveredBefore d s n) {m : Nat} {done : List Block}
    (hpre : done ++ [b] <+: dmapBlocks d) (hle : (tablesOf done).card ≤ m)
    (hlt : m < (tablesOf (done ++ [b])).card) (hn : m < n) (hlim : m < limit) :
    Supplies d (evictedStock hfits h hgood hroom) s₀ done m := by
  by_cases hm : m < arenaRoom s.arena
  · exact evicted_supplies_arena hfits h hs hgood hroom hm
  · have hsum : arenaRoom s.arena + (m - arenaRoom s.arena) = m := by omega
    have hspan : ∀ c ∈ dmapBlocks d, c.start < dmapSpan := fun c hc =>
      hfits.blocks_span hc c.holds_start
    have hcount := (card_tablesOf_le hpre).trans_lt (card_tablesOf_lt hspan)
    have hcov := hcovered done b (m - arenaRoom s.arena) hpre (hsum.symm ▸ hle) (hsum.symm ▸ hlt)
      (hsum.symm ▸ hn)
    exact evicted_supplies hfits h hs hgood hroom (Nat.le_of_not_lt hm) hlim (by omega) hcov

theorem SuppliedInTime.before (hcond : SuppliedInTime d (arenaRoom s.arena)) (hfits : DmapFits d)
    (h : DmapBooted d s) (limit : Nat)
    (hsome : ∀ k, arenaRoom s.arena + k < limit → pageAfter s k ≠ IVLDPGID)
    (hneeded : ∀ n, arenaRoom s.arena ≤ n → n < limit → n < (tablesOf (dmapBlocks d)).card) :
    PagesGood d s limit ∧ CoveredBefore d s limit := by
  constructor
  · intro k hk
    obtain ⟨done, b, hpre, hle, hlt⟩ := exists_needs (hneeded _ (Nat.le_add_right _ _) hk)
    obtain ⟨hlow, hout, _⟩ := hcond done b k _ hpre hle hlt (h.some_of_ne hfits (hsome k hk))
    exact ⟨hsome k hk, hlow, hout⟩
  · intro done b k hpre hle hlt hk
    exact (hcond done b k _ hpre hle hlt (h.some_of_ne hfits (hsome k hk))).2.2

/-- Where the memory manager has no page left, the construction melts down. -/
theorem evicted_stops (hfits : DmapFits d) (h : DmapBooted d s) (hgood : PagesGood d s limit)
    (hroom : arenaRoom s.arena ≤ limit)
    (hnone : pageAfter s (limit - arenaRoom s.arena) = IVLDPGID) :
    Stops d (evictedStock hfits h hgood hroom) s₀ bs limit .meltdown := by
  intro T s' hinv hcard
  have hctx := hinv.ctx
  have hpmm := hinv.pmm
  rw [hcard] at hctx hpmm
  exact Or.inr ⟨rfl, krdmiAcquirePageStruct_null hroom hctx hpmm hnone⟩

/-- A page that is not mapped yet cannot be zeroed. -/
theorem evicted_faults (hfits : DmapFits d) (h : DmapBooted d s) (hgood : PagesGood d s limit)
    (hroom : arenaRoom s.arena ≤ limit) (hn : arenaRoom s.arena ≤ n) (hlim : n < limit)
    (hsmall : n + 1 < 2 ^ 32)
    (hcov : ¬Covered bs (pageAfter s (n - arenaRoom s.arena) * KR_PAGE_SIZE)) :
    Stops d (evictedStock hfits h hgood hroom) s₀ bs n .pageFault := by
  intro T s' hinv hcard
  have hk : arenaRoom s.arena + (n - arenaRoom s.arena) < limit := by omega
  obtain ⟨hsome, hlow, _⟩ := hgood _ hk
  have hready := h.pmmReady hfits
  have hpages := (hgood.pmm hready (k := n + 1 - arenaRoom s.arena) (by omega)).2
  have haddr := hgood.address hready hk hpages
  have hctx := hinv.ctx
  have hpmm := hinv.pmm
  rw [hcard] at hctx hpmm
  have hspan : pageAfter s (n - arenaRoom s.arena) * KR_PAGE_SIZE < dmapSpan := by
    unfold KR_PAGE_SIZE dmapSpan
    omega
  left
  rw [krdmiAcquirePageStruct_page hn hsmall hctx hpmm rfl hsome haddr hlow, zeroPage_unmapped]
  exact hinv.unmapped hspan hcov

/-- Where the pages before come in time, the structure that cannot be had ends the construction. -/
theorem evicted_stopped {e : DmapStop} (hmaps : DmapMaps d) (h : DmapBooted d s)
    (hthree : 3 ≤ arenaRoom s.arena) {done : List Block} (hpre : done ++ [b] <+: dmapBlocks d)
    (hle : (tablesOf done).card ≤ n) (hlt : n < (tablesOf (done ++ [b])).card)
    (hgood : PagesGood d s limit) (hroom : arenaRoom s.arena ≤ limit) (hlim : n ≤ limit)
    (hcovered : CoveredBefore d s n)
    (hstops : ∀ s₀, Stops d (evictedStock hmaps.toDmapFits h hgood hroom) s₀ done n e) :
    krInitDirectMap d s = .error e := by
  have hfits := hmaps.toDmapFits
  have hspan : ∀ b ∈ dmapBlocks d, ∀ a, b.Holds a → a < dmapSpan := fun _ hb _ =>
    hfits.blocks_span hb
  have hlevel : ∀ b ∈ dmapBlocks d, b.level ≤ 2 := fun _ hb => blocks_level hb
  obtain ⟨ds, happend⟩ := id hpre
  have hsplit : done ++ b :: ds = dmapBlocks d := (List.append_cons _ _ _).trans happend
  obtain ⟨hzero, _⟩ | ⟨_, s₁, hs, hcall⟩ := krInitDirectMap_cases hfits h.toDmapReady
  · omega
  · have hstop := mapBlocks_stops (evicted_inv hfits h hs hgood hroom) (hsplit.symm ▸ hlevel)
      (hsplit.symm ▸ hspan) (hsplit.symm ▸ hmaps.blocks_apart) hle hlt
      (fun done' c hpre' m h1 h2 h3 => supplies_before hfits h hs hgood hroom hcovered
        (hpre'.trans hpre) h1 h2 h3 (h3.trans_le hlim)) (hstops s₁)
    rw [hsplit] at hstop
    rw [hstop] at hcall
    exact hcall

/-- With pages that come in time no access faults: the direct map is complete, unless the memory
manager runs out of pages. -/
theorem SuppliedInTime.mapped (hcond : SuppliedInTime d (arenaRoom s.arena)) (hmaps : DmapMaps d)
    (h : DmapBooted d s) (hthree : 3 ≤ arenaRoom s.arena) :
    (∃ s', krInitDirectMap d s = .ok (true, s') ∧ DirectMapped d s') ∨
      krInitDirectMap d s = .error .meltdown := by
  have hfits := hmaps.toDmapFits
  have hspan : ∀ b ∈ dmapBlocks d, ∀ a, b.Holds a → a < dmapSpan := fun _ hb _ =>
    hfits.blocks_span hb
  have hlevel : ∀ b ∈ dmapBlocks d, b.level ≤ 2 := fun _ hb => blocks_level hb
  obtain ⟨hzero, _⟩ | ⟨_, s₁, hs, hcall⟩ := krInitDirectMap_cases hfits h.toDmapReady
  · omega
  · by_cases hall : ∀ k, arenaRoom s.arena + k < (tablesOf (dmapBlocks d)).card →
        pageAfter s k ≠ IVLDPGID
    · have hroom : arenaRoom s.arena ≤ max (arenaRoom s.arena) (tablesOf (dmapBlocks d)).card :=
        le_max_left _ _
      obtain ⟨hgood, hcovered⟩ := hcond.before hfits h
        (max (arenaRoom s.arena) (tablesOf (dmapBlocks d)).card)
        (fun k hk => hall k (by omega)) fun n h1 h2 => by omega
      obtain ⟨s', hmap, hinv, hinfo⟩ := mapBlocks_spec (evicted_inv hfits h hs hgood hroom) hlevel
        hspan hmaps.blocks_apart fun done b hpre n hle hlt =>
          have hlim := hlt.trans_le ((card_tablesOf_le hpre).trans (le_max_right _ _))
          supplies_before hfits h hs hgood hroom hcovered hpre hle hlt hlim hlim
      rw [hmap] at hcall
      rw [hs.info, h.uncounted] at hinfo
      exact Or.inl ⟨_, hcall, hinv.directMapped hmaps hinfo _⟩
    · -- The first page that is missing, and the block that needs it.
      have hmissing : ∃ k, arenaRoom s.arena + k < (tablesOf (dmapBlocks d)).card ∧
          pageAfter s k = IVLDPGID := by
        by_contra hno
        exact hall fun k hk hnone => hno ⟨k, hk, hnone⟩
      obtain ⟨k, ⟨hk, hnone⟩, hmin⟩ : ∃ k, (arenaRoom s.arena + k < (tablesOf (dmapBlocks d)).card ∧
          pageAfter s k = IVLDPGID) ∧ ∀ j < k, ¬(arenaRoom s.arena + j <
            (tablesOf (dmapBlocks d)).card ∧ pageAfter s j = IVLDPGID) :=
        ⟨Nat.find hmissing, Nat.find_spec hmissing, fun _ hj => Nat.find_min hmissing hj⟩
      have hroom : arenaRoom s.arena ≤ arenaRoom s.arena + k := Nat.le_add_right _ _
      obtain ⟨hgood, hcovered⟩ := hcond.before hfits h (arenaRoom s.arena + k)
        (fun j hj hnone' => hmin j (by omega) ⟨by omega, hnone'⟩) fun n _ h2 => by omega
      obtain ⟨done, b, hpre, hle, hlt⟩ := exists_needs hk
      have hlast : pageAfter s (arenaRoom s.arena + k - arenaRoom s.arena) = IVLDPGID := by
        rw [Nat.add_sub_cancel_left]
        exact hnone
      exact Or.inr (evicted_stopped hmaps h hthree hpre hle hlt hgood hroom le_rfl hcovered
        fun _ => evicted_stops hfits h hgood hroom hlast)

theorem faults_of_late (hmaps : DmapMaps d) (h : DmapBooted d s) (hthree : 3 ≤ arenaRoom s.arena)
    {done : List Block} (hpre : done ++ [b] <+: dmapBlocks d)
    (hle : (tablesOf done).card ≤ arenaRoom s.arena + k)
    (hlt : arenaRoom s.arena + k < (tablesOf (done ++ [b])).card)
    (hgood : PagesGood d s (arenaRoom s.arena + k + 1))
    (hcovered : CoveredBefore d s (arenaRoom s.arena + k))
    (hlate : ¬Covered done (pageAfter s k * KR_PAGE_SIZE)) :
    krInitDirectMap d s = .error .pageFault := by
  have hfits := hmaps.toDmapFits
  have hroom : arenaRoom s.arena ≤ arenaRoom s.arena + k + 1 := by omega
  have hcount := (card_tablesOf_le hpre).trans_lt
    (card_tablesOf_lt fun c hc => hfits.blocks_span hc c.holds_start)
  refine evicted_stopped hmaps h hthree hpre hle hlt hgood hroom (Nat.le_succ _) hcovered fun _ => ?_
  refine evicted_faults hfits h hgood hroom (Nat.le_add_right _ _) (Nat.lt_succ_self _)
    (by omega) ?_
  rw [Nat.add_sub_cancel_left]
  exact hlate

theorem PagesUsable.faults (husable : PagesUsable d (arenaRoom s.arena)) (hmaps : DmapMaps d)
    (h : DmapBooted d s) (hthree : 3 ≤ arenaRoom s.arena)
    (hcond : ¬SuppliedInTime d (arenaRoom s.arena)) : krInitDirectMap d s = .error .pageFault := by
  have hfits := hmaps.toDmapFits
  have hlate : ∃ k p done b, done ++ [b] <+: dmapBlocks d ∧
      (tablesOf done).card ≤ arenaRoom s.arena + k ∧
      arenaRoom s.arena + k < (tablesOf (done ++ [b])).card ∧ (bootPages d.maps)[k]? = some p ∧
      ¬Covered done (p * KR_PAGE_SIZE) := by
    by_contra hno
    refine hcond fun done b k p hpre hle hlt hp => ?_
    obtain ⟨hlow, hout⟩ := husable k p (hlt.trans_le (card_tablesOf_le hpre)) hp
    refine ⟨hlow, hout, ?_⟩
    by_contra hcov
    exact hno ⟨k, p, done, b, hpre, hle, hlt, hp, hcov⟩
  -- The first such page: every one before it comes in time.
  classical
  have hfirst := Nat.find_spec hlate
  have hmin := fun j => Nat.find_min (m := j) hlate
  generalize Nat.find hlate = k at hfirst hmin
  obtain ⟨p, done, b, hpre, hle, hlt, hp, hcov⟩ := hfirst
  have hneeded := hlt.trans_le (card_tablesOf_le hpre)
  have hpage : ∀ j ≤ k, ∃ q, (bootPages d.maps)[j]? = some q ∧ pageAfter s j = q := by
    intro j hj
    have hlength := (List.getElem?_eq_some_iff.mp hp).1
    refine ⟨(bootPages d.maps)[j], List.getElem?_eq_getElem (by omega), ?_⟩
    rw [h.pageAfter_eq hfits, List.getElem?_eq_getElem (by omega), Option.getD_some]
  have hgood : PagesGood d s (arenaRoom s.arena + k + 1) := by
    intro j hj
    obtain ⟨q, hq, heq⟩ := hpage j (by omega)
    obtain ⟨hlow, hout⟩ := husable j q (by omega) hq
    rw [heq]
    refine ⟨?_, hlow, hout⟩
    unfold IVLDPGID
    omega
  have hcovered : CoveredBefore d s (arenaRoom s.arena + k) := by
    intro done' c j hpre' hle' hlt' hj
    obtain ⟨q, hq, heq⟩ := hpage j (by omega)
    rw [heq]
    by_contra hcov'
    exact hmin j (by omega) ⟨q, done', c, hpre', hle', hlt', hq, hcov'⟩
  obtain ⟨q, hq, heq⟩ := hpage k le_rfl
  obtain rfl : p = q := Option.some.inj (hp.symm.trans hq)
  exact faults_of_late hmaps h hthree hpre hle hlt hgood hcovered (heq ▸ hcov)

/-- Without a page that comes too late no access faults, and the direct map is complete unless the
memory manager runs out of pages; one page that does is enough for a fault. -/
theorem krInitDirectMap_evicted_iff (hmaps : DmapMaps d) (h : DmapBooted d s)
    (hthree : 3 ≤ arenaRoom s.arena) :
    (SuppliedInTime d (arenaRoom s.arena) →
      (∃ s', krInitDirectMap d s = .ok (true, s') ∧ DirectMapped d s') ∨
        krInitDirectMap d s = .error .meltdown) ∧
    (PagesUsable d (arenaRoom s.arena) →
      (krInitDirectMap d s ≠ .error .pageFault ↔ SuppliedInTime d (arenaRoom s.arena))) := by
  refine ⟨fun hcond => hcond.mapped hmaps h hthree, fun husable => ⟨fun hno => ?_, fun hcond => ?_⟩⟩
  · by_contra hcond
    exact hno (husable.faults hmaps h hthree hcond)
  · obtain ⟨s', hcall, _⟩ | hcall := hcond.mapped hmaps h hthree
    · rw [hcall]
      simp
    · rw [hcall]
      simp

end run

section boot
variable {boot : BootLayout} {x : PagingState} {a : Arena}

theorem krVmmInitKernelStaticPages_vmm (hb : BootLinked boot) :
    (krVmmInitKernelStaticPages boot x).vmm = x.vmm := by
  obtain ⟨_, hle, _⟩ := frameBufferPageCount_eq hb.nonempty hb.size
  rw [krVmmInitKernelStaticPages_eq hb rfl hle rfl]

theorem kernel_dmapBooted {mem : Bitmap.Bytes} {arena arena' : Arena} (hb : BootLinked boot)
    (hload : d.maps.loadInfo = boot.loadInfo) (hpml4 : d.g_PML4 = boot.g_PML4)
    (hzero : StructsZero boot x) (ha : ArenaPlaced boot a) (ctx : KrDirectMappingContext)
    (hinit : krInitPhysmemmgmt zeroState d.maps mem arena = (true, x.vmm.pmm, arena')) :
    DmapBooted d ⟨krVmmInitKernelStaticPages boot x, a, ⟨0, 0, 0, 0, 0⟩, ctx⟩ := by
  obtain ⟨_, hle, _⟩ := frameBufferPageCount_eq hb.nonempty hb.size
  have hstatic := kernel_staticTables hb rfl hle hzero rfl
  have hcontract := hload.trans hb.load
  have hin : ∀ p ∈ [boot.g_PML4, boot.g_KernelPDPT, boot.g_KernelPD, boot.g_FrameBufferPD],
      KERNEL_LOAD_ADDRESS ≤ krReservedVirtToPhys contractLoadInfo p ∧
        krReservedVirtToPhys contractLoadInfo p + KR_PAGE_SIZE ≤
          KERNEL_LOAD_ADDRESS + KERNEL_RESERVE_SIZE := by
    intro p hp
    have h1 := hb.linked p hp
    have h2 := h1.low
    have h3 := h1.high
    rw [reservedPhys h1]
    unfold KR_PAGE_SIZE
    omega
  refine ⟨kernel_dmapReady hb hload hpml4 hzero ha ctx, fun q t hq => ?_, mem, arena, arena', ?_⟩
  · rw [cr3, hcontract, hpml4] at hq
    rw [hcontract]
    obtain ⟨_, ht⟩ | ⟨_, ht⟩ | ⟨_, ht⟩ | ⟨_, ht⟩ := hstatic.descend_cases hq
    · rw [ht]
      exact hin boot.g_PML4 (by simp)
    · rw [ht]
      exact hin boot.g_KernelPDPT (by simp)
    · rw [ht]
      exact hin boot.g_KernelPD (by simp)
    · rw [ht]
      exact hin boot.g_FrameBufferPD (by simp)
  · dsimp only
    rw [krVmmInitKernelStaticPages_vmm hb]
    exact hinit

end boot

def tightDmap (memoryMap canonicalMemoryMap : List KrMemoryDescriptor) : DmapLayout where
  maps := { memoryMap, canonicalMemoryMap, loadInfo := contractLoadInfo }
  g_PML4 := 0xFFFFFFFF80100000
  bHugePageSupport := false

def tightArena : Arena := ⟨0xFFFFFFFF80200000, 0xFFFFFFFF80204020, 0xFFFFFFFF80208000⟩

def tightState (pmm : KrPhysmemmgmtState) : DmapState where
  paging := krVmmInitKernelStaticPages smallLayout { smallPaging with vmm := { smallVmm with pmm } }
  arena := tightArena
  info := ⟨0, 0, 0, 0, 0⟩
  ctx := ⟨0, 0, 0, 0, 0, 0⟩

theorem arenaPlaced_tightArena : ArenaPlaced smallLayout tightArena := by
  refine ⟨by decide, by decide, by decide, by decide, fun p hp => ?_⟩
  simp only [smallLayout, List.mem_cons, List.not_mem_nil, or_false] at hp
  obtain rfl | rfl | rfl | rfl := hp <;> decide

theorem tightState_booted {mem : Bitmap.Bytes} {arena arena' : Arena} {pmm : KrPhysmemmgmtState}
    (hload : d.maps.loadInfo = contractLoadInfo) (hpml4 : d.g_PML4 = 0xFFFFFFFF80100000)
    (hinit : krInitPhysmemmgmt zeroState d.maps mem arena = (true, pmm, arena')) :
    DmapBooted d (tightState pmm) :=
  kernel_dmapBooted bootLinked_smallLayout hload hpml4 (fun _ _ _ => rfl) arenaPlaced_tightArena _
    hinit

theorem tightState_pmm (pmm : KrPhysmemmgmtState) : (tightState pmm).paging.vmm.pmm = pmm :=
  congrArg VmmState.pmm (krVmmInitKernelStaticPages_vmm bootLinked_smallLayout)

theorem arenaRoom_tightArena : arenaRoom tightArena = 3 := by decide

def bootArena : Arena := ⟨0xFFFFFFFF80200000, 0xFFFFFFFF80200000, 0xFFFFFFFF80208000⟩

def nvsDmap : DmapLayout :=
  tightDmap [⟨0x10000000, 1, 0, KR_MEMORY_TYPE_CONVENTIONAL_MEMORY, 0⟩,
    ⟨0x20000000, 1, 0, KR_MEMORY_TYPE_ACPI_MEMORY_NVS, 0⟩]
    [⟨0x10000000, 1, 0, KR_MEMORY_TYPE_CONVENTIONAL_MEMORY, 0⟩]

def nvsBoot : KrPhysmemmgmtState :=
  (krInitPhysmemmgmt zeroState nvsDmap.maps (fun _ => 0#8) bootArena).2.1

theorem krInitPhysmemmgmt_nvsDmap :
    krInitPhysmemmgmt zeroState nvsDmap.maps (fun _ => 0#8) bootArena =
      (true, nvsBoot, (krInitPhysmemmgmt zeroState nvsDmap.maps (fun _ => 0#8) bootArena).2.2) :=
  eq_of_succeeded (by decide +kernel)

theorem dmapMaps_nvsDmap : DmapMaps nvsDmap := by decide

theorem nvsDmap_booted : DmapBooted nvsDmap (tightState nvsBoot) :=
  tightState_booted rfl rfl krInitPhysmemmgmt_nvsDmap

theorem suppliedInTime_nvsDmap : SuppliedInTime nvsDmap 3 := by
  have hblocks : dmapBlocks nvsDmap = [⟨0, 0x10000⟩] ++ [⟨0, 0x20000⟩] := by decide
  have hpages : bootPages nvsDmap.maps = [0x10000] := by decide +kernel
  intro done b k p hpre _ hlt hp
  rw [hpages] at hp
  obtain rfl : p = 0x10000 := List.mem_singleton.mp (List.mem_of_getElem? hp)
  refine ⟨by decide, by unfold InKernel; decide, ?_⟩
  rw [hblocks, List.prefix_concat_iff] at hpre
  cases hpre with
  | inl hall =>
    obtain ⟨hdone, _⟩ := List.append_inj' hall rfl
    rw [hdone]
    exact ⟨_, List.mem_singleton_self _, by show _ = _; decide⟩
  | inr hfirst =>
    have hfew := card_tablesOf_le hfirst
    have hthree : (tablesOf [(⟨0, 0x10000⟩ : Block)]).card = 3 := by decide
    omega

theorem pagesUsable_nvsDmap : PagesUsable nvsDmap 3 := by
  have hpages : bootPages nvsDmap.maps = [0x10000] := by decide +kernel
  intro k p _ hp
  rw [hpages] at hp
  obtain rfl : p = 0x10000 := List.mem_singleton.mp (List.mem_of_getElem? hp)
  exact ⟨by decide, by unfold InKernel; decide⟩

theorem krInitDirectMap_evicted_iff_nvsDmap :
    ((∃ s', krInitDirectMap nvsDmap (tightState nvsBoot) = .ok (true, s') ∧
      DirectMapped nvsDmap s') ∨
      krInitDirectMap nvsDmap (tightState nvsBoot) = .error .meltdown) ∧
    krInitDirectMap nvsDmap (tightState nvsBoot) ≠ .error .pageFault := by
  have hiff := krInitDirectMap_evicted_iff dmapMaps_nvsDmap nvsDmap_booted (by decide)
  exact ⟨hiff.1 suppliedInTime_nvsDmap, (hiff.2 pagesUsable_nvsDmap).mpr suppliedInTime_nvsDmap⟩

/-- A page below 1 MiB, which the manager keeps, and one of memory. -/
def lateDmap : DmapLayout :=
  tightDmap [⟨0x1000, 1, 0, KR_MEMORY_TYPE_CONVENTIONAL_MEMORY, 0⟩,
    ⟨0x10000000, 1, 0, KR_MEMORY_TYPE_CONVENTIONAL_MEMORY, 0⟩]
    [⟨0x1000, 1, 0, KR_MEMORY_TYPE_CONVENTIONAL_MEMORY, 0⟩,
    ⟨0x10000000, 1, 0, KR_MEMORY_TYPE_CONVENTIONAL_MEMORY, 0⟩]

theorem dmapMaps_lateDmap : DmapMaps lateDmap := by decide

def lateBoot : KrPhysmemmgmtState :=
  (krInitPhysmemmgmt zeroState lateDmap.maps (fun _ => 0#8) bootArena).2.1

theorem krInitPhysmemmgmt_lateDmap :
    krInitPhysmemmgmt zeroState lateDmap.maps (fun _ => 0#8) bootArena =
      (true, lateBoot, (krInitPhysmemmgmt zeroState lateDmap.maps (fun _ => 0#8) bootArena).2.2) :=
  eq_of_succeeded (by decide +kernel)

theorem lateBoot_pages : lateBoot.nrPages = 0x10001 := by decide +kernel

theorem pageFree_lateBoot {p : Nat} (hp : p < lateBoot.nrPages) :
    pageFree lateBoot p = true ↔ p = 0x10000 := by
  have hlow : wrap32 (0x1000 / KR_PAGE_SIZE) = 1 := by decide
  have hhigh : wrap32 (0x10000000 / KR_PAGE_SIZE) = 0x10000 := by decide
  have hkernel : wrap32 (contractLoadInfo.addrPhysicalBase / KR_PAGE_SIZE) = 0x200 := by decide
  have hreserve : contractLoadInfo.reserveSize / KR_PAGE_SIZE = 0x8000 := by decide
  have hzero : wrap32 0 = 0 := by decide
  have hload : lateDmap.maps.loadInfo = contractLoadInfo := rfl
  obtain ⟨hnr, hfree⟩ := pageFree_released (by decide) (by decide) krInitPhysmemmgmt_lateDmap
  rw [hfree p hp, BootFree, Taken, ← hnr, lateBoot_pages, hload, hreserve]
  unfold Released Applies
  simp only [lateDmap, tightDmap, List.mem_cons, List.not_mem_nil, or_false, exists_eq_or_imp,
    exists_eq_left, hlow, hhigh, hkernel, hzero]
  omega

theorem lateBoot_start : startPage lateBoot IVLDPGID = 1 := by decide +kernel

theorem pmmReady_lateBoot : PmmReady lateBoot :=
  (PostInit.booted ⟨lateDmap.maps, _, _, _, by decide, by decide, krInitPhysmemmgmt_lateDmap⟩).ready

theorem evictedNext_lateBoot : (evictedNext lateBoot).1 = 0x10000 := by
  have hready := pmmReady_lateBoot
  have hlast : 0x10000 < lateBoot.nrPages := by
    rw [lateBoot_pages]
    decide
  have hstart : krIsValidPageID lateBoot (startPage lateBoot IVLDPGID) = true := by
    rw [lateBoot_start]
    exact hready.valid (by omega)
  have hfound := pmAcquirePage_found hready.sized PAGE_TYPE_PAGE_STRUCT hstart
    ⟨0x10000, hlast, (pageFree_lateBoot hlast).mpr rfl⟩
  rw [← evictedNext_page] at hfound
  obtain hnone | ⟨hlt, hfree, _⟩ := evictedNext_cases hready
  · exact absurd hnone hfound
  · exact (pageFree_lateBoot hlt).mp hfree

theorem pageAfter_zero_tightState (pmm : KrPhysmemmgmtState) :
    pageAfter (tightState pmm) 0 = (evictedNext pmm).1 := by
  unfold pageAfter
  rw [tightState_pmm]
  rfl

theorem pageAfter_lateBoot : pageAfter (tightState lateBoot) 0 = 0x10000 := by
  rw [pageAfter_zero_tightState, evictedNext_lateBoot]

theorem krInitDirectMap_lateDmap {pmm : KrPhysmemmgmtState}
    (h : DmapBooted lateDmap (tightState pmm)) (hpage : pageAfter (tightState pmm) 0 = 0x10000) :
    krInitDirectMap lateDmap (tightState pmm) = .error .pageFault := by
  have hroom : arenaRoom (tightState pmm).arena = 3 := arenaRoom_tightArena
  have hblocks : dmapBlocks lateDmap = [⟨0, 1⟩] ++ [⟨0, 0x10000⟩] := by decide
  have hpre : ([⟨0, 1⟩] : List Block) ++ [⟨0, 0x10000⟩] <+: dmapBlocks lateDmap :=
    hblocks ▸ List.prefix_rfl
  refine faults_of_late (k := 0) dmapMaps_lateDmap h hroom.ge hpre (by rw [hroom]; decide)
    (by rw [hroom]; decide) (fun k hk => ?_) (fun _ _ k _ _ _ hk => ?_) ?_
  · obtain rfl : k = 0 := by omega
    rw [hpage]
    exact ⟨by decide, by decide, by unfold InKernel; decide⟩
  · omega
  · rw [hpage]
    simp only [Covered, List.mem_singleton, exists_eq_left, Block.Holds]
    decide

/-- Not all pages come in time. -/
theorem lateDmap_faults : ¬∀ (d : DmapLayout) (s : DmapState), DmapMaps d → DmapBooted d s →
    3 ≤ arenaRoom s.arena → krInitDirectMap d s ≠ .error .pageFault := by
  intro hall
  have hbooted : DmapBooted lateDmap (tightState lateBoot) :=
    tightState_booted rfl rfl krInitPhysmemmgmt_lateDmap
  have hfault := krInitDirectMap_lateDmap hbooted pageAfter_lateBoot
  exact hall lateDmap (tightState lateBoot) dmapMaps_lateDmap hbooted arenaRoom_tightArena.ge hfault

end Ych.Virtmemmgmt
