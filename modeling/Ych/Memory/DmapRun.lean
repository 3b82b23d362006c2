import Ych.Memory.BSmapInit
import Ych.Memory.DmapSteps

/-! The construction of the direct map as a whole: what the loop starts with, and what it leaves
as long as the stock of structures lasts. -/
namespace Ych.Virtmemmgmt
open Words BootstrapArena PageTree PAT Physmemmgmt PTE

variable {d : DmapLayout} {stk : Stock} {s₀ s : DmapState} {x : PagingState} {n t vt : Nat}
  {b c : Block} {bs cs : List Block}

theorem Block.Apart.symm (h : b.Apart c) : c.Apart b := fun a hc hb => h a hb hc

def countBlocks (info : DmapInfo) (bs : List Block) : DmapInfo :=
  bs.foldl (fun info b => countPage info (levelMode b.level)) info

theorem mapBlocks_spec (hinv : DmapInv d stk s₀ bs (tablesOf bs) s) (hlevel : ∀ b ∈ cs, b.level ≤ 2)
    (hbelow : ∀ b ∈ cs, ∀ a, b.Holds a → a < dmapSpan) (hapart : (bs ++ cs).Pairwise Block.Apart)
    (hsup : ∀ done b, done ++ [b] <+: cs → ∀ n, (tablesOf (bs ++ done)).card ≤ n →
      n < (tablesOf (bs ++ done ++ [b])).card → Supplies d stk s₀ (bs ++ done) n) :
    ∃ s', mapBlocks d cs s = .ok s' ∧ DmapInv d stk s₀ (bs ++ cs) (tablesOf (bs ++ cs)) s' ∧
      s'.info = countBlocks s.info cs := by
  induction cs generalizing bs s with
  | nil =>
    rw [List.append_nil]
    exact ⟨s, rfl, hinv, rfl⟩
  | cons b cs ih =>
    have hmem : b ∈ b :: cs := List.mem_cons_self
    have hb : ∀ c ∈ bs, b.Apart c := fun c hc =>
      ((List.pairwise_append.mp hapart).2.2 c hc b hmem).symm
    have hfirst := hsup [] b ⟨cs, rfl⟩
    rw [List.append_nil] at hfirst
    obtain ⟨s₁, hmap, hinv₁, hinfo₁⟩ := mapPage_spec hinv (hlevel b hmem) (hbelow b hmem) hb hfirst
    have happend : ∀ l, bs ++ b :: l = bs ++ [b] ++ l := fun l => by simp
    rw [happend] at hapart ⊢
    obtain ⟨s₂, hmaps, hinv₂, hinfo₂⟩ := ih hinv₁ (fun c hc => hlevel c (List.mem_cons_of_mem b hc))
      (fun c hc => hbelow c (List.mem_cons_of_mem b hc)) hapart fun done c hpre => by
        have := hsup (b :: done) c (List.cons_prefix_cons.mpr ⟨rfl, hpre⟩)
        rw [happend] at this
        exact this
    refine ⟨s₂, ?_, hinv₂, ?_⟩
    · rw [mapBlocks, hmap]
      exact hmaps
    · rw [hinfo₂, hinfo₁]
      rfl

section start

theorem zeroPages_spec (hback : ∀ j < n, Backed d x (vt + j * KR_PAGE_SIZE) (t + j * KR_PAGE_SIZE))
    (hfresh : ∀ j < n, ∀ q, descend slot x.tables 4 (cr3 d) q ≠ some (t + j * KR_PAGE_SIZE)) :
    ∃ f, zeroPages d vt n x = .ok { x with tables := f } ∧
      (∀ q, descend slot f 4 (cr3 d) q = descend slot x.tables 4 (cr3 d) q) ∧
      (∀ q, walk slot f 4 (cr3 d) q = walk slot x.tables 4 (cr3 d) q) ∧
      ∀ p, f p = if ∃ j < n, p = t + j * KR_PAGE_SIZE then fun _ => 0 else x.tables p := by
  induction n with
  | zero => exact ⟨x.tables, rfl, fun _ => rfl, fun _ => rfl, fun p => by simp⟩
  | succ n ih =>
    obtain ⟨f, hcall, hdesc, hwalk, hzero⟩ := ih (fun j hj => hback j (Nat.lt_succ_of_lt hj))
      fun j hj => hfresh j (Nat.lt_succ_of_lt hj)
    have hlast := (hback n (Nat.lt_succ_self n)).mono (y := { x with tables := f })
      fun q l hq => (hwalk q).trans hq
    obtain ⟨hphys, hpage, _⟩ := hlast.entry (show 0 < 512 by decide)
    rw [Nat.mul_zero, Nat.add_zero] at hphys hpage
    have hlastFresh : ∀ q, descend slot f 4 (cr3 d) q ≠ some (t + n * KR_PAGE_SIZE) := fun q hq =>
      hfresh n (Nat.lt_succ_self n) q ((hdesc q).symm.trans hq)
    refine ⟨Function.update f (t + n * KR_PAGE_SIZE) fun _ => 0, ?_, fun q => ?_, fun q => ?_,
      fun p => ?_⟩
    · rw [zeroPages, hcall]
      dsimp only
      rw [hphys]
      dsimp only
      rw [Nat.add_zero, hpage]
    · rw [descend_update_fresh hlastFresh, hdesc]
    · rw [walk_update_fresh hlastFresh, hwalk]
    · by_cases hp : p = t + n * KR_PAGE_SIZE
      · rw [hp, Function.update_self, if_pos ⟨n, Nat.lt_succ_self n, rfl⟩]
      · rw [Function.update_of_ne hp, hzero]
        congr 1
        apply propext
        constructor
        · rintro ⟨j, hj, rfl⟩
          exact ⟨j, Nat.lt_succ_of_lt hj, rfl⟩
        · rintro ⟨j, hj, rfl⟩
          refine ⟨j, ?_, rfl⟩
          rcases Nat.lt_succ_iff_lt_or_eq.mp hj with hlt | rfl
          · exact hlt
          · exact absurd rfl hp

def arenaStart (a : Arena) : Nat := (a.pPtr + (KR_PAGE_SIZE - 1)) / KR_PAGE_SIZE * KR_PAGE_SIZE

def arenaRoom (a : Arena) : Nat := (a.pEnd - arenaStart a) / KR_PAGE_SIZE

theorem krBootstrapArenaAlign_spec {a : Arena} (h : a.pPtr + KR_PAGE_SIZE < 2 ^ 64) :
    krBootstrapArenaAlign a KR_PAGE_STRUCTURE_SIZE =
      if arenaStart a > a.pEnd then (false, a) else (true, { a with pPtr := arenaStart a }) := by
  have hpage : KR_PAGE_STRUCTURE_SIZE = 2 ^ 12 := by decide
  have hsum : wrap64 (a.pPtr + (2 ^ 12 - 1)) = a.pPtr + (2 ^ 12 - 1) := by
    refine wrap64_of_lt ?_
    unfold KR_PAGE_SIZE at h
    omega
  rw [hpage, krBootstrapArenaAlign_pow a (by decide), hsum]
  rfl

theorem krBootstrapArenaAcquire_pages {a : Arena} (hn : 0 < n)
    (hfits : a.pPtr + n * KR_PAGE_SIZE ≤ a.pEnd) (hend : a.pEnd + 16 < 2 ^ 64) :
    krBootstrapArenaAcquire a (n * KR_PAGE_SIZE) =
      (a.pPtr, { a with pPtr := a.pPtr + n * KR_PAGE_SIZE }) := by
  have hpage : KR_PAGE_SIZE = 2 ^ 12 := by decide
  rw [hpage] at hfits ⊢
  have hround : granule (n * 2 ^ 12) = n * 2 ^ 12 := by
    unfold granule
    rw [wrap64_of_lt (by omega)]
    omega
  have hptr : wrap64 (a.pPtr + n * 2 ^ 12) = a.pPtr + n * 2 ^ 12 := wrap64_of_lt (by omega)
  rw [krBootstrapArenaAcquire_granule, hround, hptr, if_neg (by omega)]

def startContext (d : DmapLayout) (a : Arena) : KrDirectMappingContext where
  physAddrBarenaBase := krReservedVirtToPhys d.maps.loadInfo (arenaStart a)
  numBarenaMaxStructs := arenaRoom a
  numTotalAcqPageStructs := 0
  workingBase := arenaStart a
  workingCur := arenaStart a
  lastAcqPageID := IVLDPGID

def InReserve (d : DmapLayout) (v : Nat) : Prop :=
  d.maps.loadInfo.addrVirtualBase ≤ v ∧
    v < d.maps.loadInfo.addrVirtualBase + d.maps.loadInfo.reserveSize

/-- What the boot has made: the kernel's reserved area, with the PML4 and the arena in it, lies in
its gigabyte and is mapped; nothing else is mapped below it, and no structure is in what is left
of the arena. -/
structure DmapReady (d : DmapLayout) (s : DmapState) : Prop where
  low : KR_MAKE_VIRTUAL KRNL_PML4_IDX KRNL_BINARY_PDPT_IDX 0 0 0 ≤ d.maps.loadInfo.addrVirtualBase
  high : d.maps.loadInfo.addrVirtualBase + d.maps.loadInfo.reserveSize ≤
    KR_MAKE_VIRTUAL KRNL_PML4_IDX KRNL_VIDEO_FBUF_IDX 0 0 0
  phys : d.maps.loadInfo.addrPhysicalBase + d.maps.loadInfo.reserveSize ≤ 2 ^ 52
  virtAligned : KR_PAGE_SIZE ∣ d.maps.loadInfo.addrVirtualBase
  physAligned : KR_PAGE_SIZE ∣ d.maps.loadInfo.addrPhysicalBase
  mapped : ∀ v, InReserve d v → physOf d s.paging v = some (krReservedVirtToPhys d.maps.loadInfo v)
  pml4Aligned : KR_PAGE_SIZE ∣ d.g_PML4
  pml4 : ∀ o < KR_PAGE_SIZE, InReserve d (d.g_PML4 + o)
  arenaBase : d.maps.loadInfo.addrVirtualBase ≤ s.arena.pBase
  arenaPtr : s.arena.pBase ≤ s.arena.pPtr
  arenaStop : s.arena.pPtr ≤ s.arena.pEnd
  arenaEnd : s.arena.pEnd ≤ d.maps.loadInfo.addrVirtualBase + d.maps.loadInfo.reserveSize
  tree : Tree slot s.paging.tables 4 (cr3 d)
  empty : ∀ a < dmapSpan,
    slot 3 (s.paging.tables (cr3 d) (indexAt 3 (virtAddrBase + a))) = .absent
  apart : ∀ q t, descend slot s.paging.tables 4 (cr3 d) q = some t →
    t + KR_PAGE_SIZE ≤ krReservedVirtToPhys d.maps.loadInfo s.arena.pPtr ∨
      krReservedVirtToPhys d.maps.loadInfo s.arena.pEnd ≤ t
  uncounted : s.info = ⟨0, 0, 0, 0, 0⟩

namespace DmapReady

theorem bounds (h : DmapReady d s) : 2 ^ 64 - 2 ^ 31 ≤ d.maps.loadInfo.addrVirtualBase ∧
    d.maps.loadInfo.addrVirtualBase + d.maps.loadInfo.reserveSize ≤ 2 ^ 64 - 2 ^ 30 := by
  have hlow : KR_MAKE_VIRTUAL KRNL_PML4_IDX KRNL_BINARY_PDPT_IDX 0 0 0 = 2 ^ 64 - 2 ^ 31 := by decide
  have hhigh : KR_MAKE_VIRTUAL KRNL_PML4_IDX KRNL_VIDEO_FBUF_IDX 0 0 0 = 2 ^ 64 - 2 ^ 30 := by decide
  exact ⟨hlow ▸ h.low, hhigh ▸ h.high⟩

theorem start_bounds (h : DmapReady d s) : s.arena.pPtr ≤ arenaStart s.arena ∧
    arenaStart s.arena < s.arena.pPtr + KR_PAGE_SIZE ∧ KR_PAGE_SIZE ∣ arenaStart s.arena := by
  have hb := h.bounds
  have h1 := h.arenaBase
  have h2 := h.arenaPtr
  unfold arenaStart KR_PAGE_SIZE
  omega

theorem virtToPhys (h : DmapReady d s) {v : Nat} (hlow : d.maps.loadInfo.addrVirtualBase ≤ v)
    (hhigh : v ≤ d.maps.loadInfo.addrVirtualBase + d.maps.loadInfo.reserveSize) :
    krReservedVirtToPhys d.maps.loadInfo v =
      d.maps.loadInfo.addrPhysicalBase + (v - d.maps.loadInfo.addrVirtualBase) := by
  have hb := h.bounds
  have hphys := h.phys
  unfold krReservedVirtToPhys
  rw [sub64_of_le hlow (by omega), wrap64_of_lt (by omega)]

theorem backed (h : DmapReady d s) {v : Nat} (hdvd : KR_PAGE_SIZE ∣ v)
    (hin : ∀ o < KR_PAGE_SIZE, InReserve d (v + o)) :
    Backed d s.paging v (krReservedVirtToPhys d.maps.loadInfo v) := by
  have hb := h.bounds
  have h0 := hin 0 (by decide)
  have hphys := h.virtToPhys (v := v) h0.1 h0.2.le
  refine ⟨?_, fun o ho => ?_⟩
  · rw [hphys]
    exact Nat.dvd_add h.physAligned (Nat.dvd_sub hdvd h.virtAligned)
  · obtain ⟨h1, h2⟩ := hin o ho
    unfold InReserve at h0
    rw [wrap64_of_lt (by omega), h.mapped _ (hin o ho), h.virtToPhys h1 h2.le, hphys]
    congr 1
    omega

theorem page (h : DmapReady d s) {j : Nat} (hj : j < arenaRoom s.arena) :
    d.maps.loadInfo.addrVirtualBase ≤ arenaStart s.arena + j * KR_PAGE_SIZE ∧
      arenaStart s.arena + j * KR_PAGE_SIZE + KR_PAGE_SIZE ≤ s.arena.pEnd := by
  obtain ⟨h1, _, _⟩ := h.start_bounds
  have h2 := h.arenaBase
  have h3 := h.arenaPtr
  unfold arenaRoom at hj
  unfold KR_PAGE_SIZE at hj ⊢
  omega

theorem structPhys (h : DmapReady d s) {j : Nat} (hj : j < arenaRoom s.arena) :
    krReservedVirtToPhys d.maps.loadInfo (arenaStart s.arena) + j * KR_PAGE_SIZE =
      krReservedVirtToPhys d.maps.loadInfo (arenaStart s.arena + j * KR_PAGE_SIZE) := by
  obtain ⟨h1, h2⟩ := h.page hj
  obtain ⟨h3, _, _⟩ := h.start_bounds
  have h4 := h.arenaBase
  have h5 := h.arenaPtr
  have h6 := h.arenaEnd
  rw [h.virtToPhys (by omega) (by omega), h.virtToPhys h1 (by omega)]
  omega

theorem structBound (h : DmapReady d s) {j : Nat} (hj : j < arenaRoom s.arena) :
    krReservedVirtToPhys d.maps.loadInfo (arenaStart s.arena) + j * KR_PAGE_SIZE + KR_PAGE_SIZE ≤
      2 ^ 52 := by
  obtain ⟨h1, h2⟩ := h.page hj
  have h3 := h.arenaEnd
  have h4 := h.phys
  rw [h.structPhys hj, h.virtToPhys h1 (by omega)]
  omega

theorem room_lt (h : DmapReady d s) : arenaRoom s.arena < 2 ^ 20 := by
  have h1 := h.bounds
  have h2 := h.arenaEnd
  have h3 := h.arenaBase
  have h4 := h.arenaPtr
  have h5 := h.start_bounds.1
  unfold arenaRoom KR_PAGE_SIZE
  omega

theorem structBacked (h : DmapReady d s) {j : Nat} (hj : j < arenaRoom s.arena) :
    Backed d s.paging (arenaStart s.arena + j * KR_PAGE_SIZE)
      (krReservedVirtToPhys d.maps.loadInfo (arenaStart s.arena) + j * KR_PAGE_SIZE) := by
  obtain ⟨h1, h2⟩ := h.page hj
  obtain ⟨_, _, h3⟩ := h.start_bounds
  have h4 := h.arenaEnd
  rw [h.structPhys hj]
  refine h.backed (Nat.dvd_add h3 (Nat.dvd_mul_left _ _)) fun o ho => ⟨by omega, by omega⟩

theorem structFresh (h : DmapReady d s) {j : Nat} (hj : j < arenaRoom s.arena) (q : List (Fin 512)) :
    descend slot s.paging.tables 4 (cr3 d) q ≠
      some (krReservedVirtToPhys d.maps.loadInfo (arenaStart s.arena) + j * KR_PAGE_SIZE) := by
  intro hq
  have hapart := h.apart q _ hq
  obtain ⟨h1, h2⟩ := h.page hj
  obtain ⟨h3, _, _⟩ := h.start_bounds
  have h4 := h.arenaBase
  have h5 := h.arenaPtr
  have h6 := h.arenaEnd
  have h7 := h.arenaStop
  have hpos : 0 < KR_PAGE_SIZE := by decide
  rw [h.structPhys hj, h.virtToPhys h1 (by omega), h.virtToPhys (by omega) (by omega),
    h.virtToPhys (by omega) h6] at hapart
  omega

theorem structVirt (h : DmapReady d s) {j : Nat} (hj : j < arenaRoom s.arena) {arena : Arena}
    (hbase : arena.pBase = s.arena.pBase) (hend : arena.pEnd = s.arena.pEnd) :
    krdmiGetVirtualOfPTE d arena
        (krReservedVirtToPhys d.maps.loadInfo (arenaStart s.arena) + j * KR_PAGE_SIZE) =
      arenaStart s.arena + j * KR_PAGE_SIZE := by
  obtain ⟨h1, h2⟩ := h.page hj
  obtain ⟨h3, _, _⟩ := h.start_bounds
  have h4 := h.arenaBase
  have h5 := h.arenaPtr
  have h6 := h.arenaEnd
  have h7 := h.arenaStop
  have h8 := h.bounds
  have h9 := h.phys
  have hpos : 0 < KR_PAGE_SIZE := by decide
  unfold krdmiGetVirtualOfPTE
  dsimp only
  rw [hbase, hend, h.structPhys hj, h.virtToPhys h1 (by omega), h.virtToPhys h4 (by omega),
    h.virtToPhys (by omega) h6, if_pos ⟨by omega, by omega⟩]
  unfold krReservedPhysToVirt
  rw [sub64_of_le (by omega) (by omega), wrap64_of_lt (by omega)]
  omega

theorem maxStructs (h : DmapReady d s) (hfit : arenaStart s.arena ≤ s.arena.pEnd) :
    wrap32 (krBootstrapArenaGetSpaceLeft { s.arena with pPtr := arenaStart s.arena } /
      KR_PAGE_STRUCTURE_SIZE) = arenaRoom s.arena := by
  have h1 := h.bounds
  have h2 := h.arenaEnd
  have h3 := h.arenaBase
  have h4 := h.arenaPtr
  obtain ⟨h5, _, _⟩ := h.start_bounds
  have hsize : KR_PAGE_STRUCTURE_SIZE = 2 ^ 12 := by decide
  have hpage : KR_PAGE_SIZE = 2 ^ 12 := by decide
  unfold krBootstrapArenaGetSpaceLeft arenaRoom
  dsimp only
  rw [if_pos (by omega), sub64_of_le (by omega) (by omega), hsize, hpage,
    wrap32_of_lt (by omega)]

theorem context (h : DmapReady d s) (hroom : 0 < arenaRoom s.arena) :
    dmapContext d { s.arena with pPtr := arenaStart s.arena } = (startContext d s.arena,
      { s.arena with pPtr := arenaStart s.arena + arenaRoom s.arena * KR_PAGE_SIZE }) := by
  obtain ⟨_, h1⟩ := h.page (Nat.sub_lt hroom Nat.one_pos)
  have h2 := h.bounds
  have h3 := h.arenaEnd
  have h4 := h.arenaBase
  have h5 := h.arenaPtr
  have h6 := h.start_bounds.1
  have hmax := h.maxStructs (by omega)
  have hle : arenaRoom s.arena * KR_PAGE_SIZE ≤ s.arena.pEnd - arenaStart s.arena :=
    Nat.div_mul_le_self _ _
  have hbytes : wrap32 (arenaRoom s.arena * KR_PAGE_STRUCTURE_SIZE) =
      arenaRoom s.arena * KR_PAGE_SIZE := wrap32_of_lt (hle.trans_lt (by omega))
  have hacq := krBootstrapArenaAcquire_pages (a := { s.arena with pPtr := arenaStart s.arena })
    hroom (by dsimp only; omega) (by dsimp only; omega)
  dsimp only at hacq
  unfold dmapContext
  dsimp only
  rw [hmax, hbytes, hacq]
  rfl

end DmapReady

structure Started (d : DmapLayout) (s s₁ : DmapState) : Prop where
  arena : s₁.arena = { s.arena with pPtr := arenaStart s.arena + arenaRoom s.arena * KR_PAGE_SIZE }
  ctx : s₁.ctx = startContext d s.arena
  info : s₁.info = s.info
  paging : s₁.paging = { s.paging with tables := s₁.paging.tables }
  descends : ∀ q, descend slot s₁.paging.tables 4 (cr3 d) q = descend slot s.paging.tables 4 (cr3 d) q
  walks : ∀ q, walk slot s₁.paging.tables 4 (cr3 d) q = walk slot s.paging.tables 4 (cr3 d) q
  zero : ∀ p, s₁.paging.tables p = if ∃ j < arenaRoom s.arena,
      p = krReservedVirtToPhys d.maps.loadInfo (arenaStart s.arena) + j * KR_PAGE_SIZE
    then fun _ => 0 else s.paging.tables p

/-- With no room there is no direct map, otherwise the loop decides. -/
theorem krInitDirectMap_cases (hfits : DmapFits d) (h : DmapReady d s) :
    (arenaRoom s.arena = 0 ∧ ∃ s', krInitDirectMap d s = .ok (false, s')) ∨
      0 < arenaRoom s.arena ∧ ∃ s₁, Started d s s₁ ∧ krInitDirectMap d s =
        match mapBlocks d (dmapBlocks d) s₁ with
        | .error e => .error e
        | .ok s => .ok (true, { s with
            info := { s.info with totalPageStructs := s.ctx.numTotalAcqPageStructs } }) := by
  have hb := h.bounds
  have h4 := h.arenaEnd
  have h5 := h.arenaStop
  obtain ⟨h7, h9, h8⟩ := h.start_bounds
  have hpos : 0 < KR_PAGE_SIZE := by decide
  have hpage : KR_PAGE_SIZE = 2 ^ 12 := by decide
  have halign := krBootstrapArenaAlign_spec (a := s.arena) (by omega)
  unfold krInitDirectMap
  by_cases hfit : arenaStart s.arena > s.arena.pEnd
  · rw [halign, if_pos hfit]
    refine Or.inl ⟨?_, _, rfl⟩
    unfold arenaRoom
    rw [Nat.sub_eq_zero_of_le hfit.le, Nat.zero_div]
  · rw [halign, if_neg hfit]
    by_cases hroom : arenaRoom s.arena = 0
    · refine Or.inl ⟨hroom, { s with arena := { s.arena with pPtr := arenaStart s.arena } }, ?_⟩
      have hmax := (h.maxStructs (Nat.le_of_not_lt hfit)).trans hroom
      dsimp only
      rw [if_neg (by decide), if_pos]
      exact hmax
    · refine Or.inr ⟨Nat.pos_of_ne_zero hroom, ?_⟩
      obtain ⟨f, hzero, hdesc, hwalk, htab⟩ := zeroPages_spec (d := d) (x := s.paging)
        (t := krReservedVirtToPhys d.maps.loadInfo (arenaStart s.arena)) (n := arenaRoom s.arena)
        (fun j hj => h.structBacked hj) fun j hj => h.structFresh hj
      dsimp only
      rw [h.context (Nat.pos_of_ne_zero hroom)]
      unfold startContext
      dsimp only
      rw [if_neg (by decide), if_neg hroom, hzero]
      dsimp only
      rw [mapRegions_eq hfits fun r hr => hr]
      exact ⟨{ s with
        paging := { s.paging with tables := f }
        arena := { s.arena with pPtr := arenaStart s.arena + arenaRoom s.arena * KR_PAGE_SIZE }
        ctx := startContext d s.arena }, ⟨rfl, rfl, rfl, rfl, hdesc, hwalk, htab⟩, rfl⟩

theorem DmapReady.nothing (h : DmapReady d s) {a : Nat} (ha : a < dmapSpan) :
    walk slot s.paging.tables 4 (cr3 d) (path (virtAddrBase + a)) = none ∧
      ∀ k ≤ 3, descend slot s.paging.tables 4 (cr3 d) ((path (virtAddrBase + a)).take (4 - k)) =
        none := by
  have habsent := h.empty a ha
  have hroot : descend slot s.paging.tables 4 (cr3 d) [] = some (cr3 d) := descend_nil _ _
  refine ⟨walk_eq_none (p := []) hroot habsent, fun k hk => ?_⟩
  have htake : (path (virtAddrBase + a)).take (4 - k) = indexAt 3 (virtAddrBase + a) ::
      [indexAt 2 (virtAddrBase + a), indexAt 1 (virtAddrBase + a),
        indexAt 0 (virtAddrBase + a)].take (3 - k) := by
    rw [show 4 - k = 3 - k + 1 by omega]
    rfl
  rw [htake, descend, habsent]

theorem Started.inv (hs : Started d s s₀) (h : DmapReady d s) (hctx : stk.ctx 0 = s₀.ctx)
    (hpmm : stk.pmm 0 = s.paging.vmm.pmm)
    (hzero : ∀ n < stk.zeroed, ∃ j < arenaRoom s.arena, stk.struct n =
      krReservedVirtToPhys d.maps.loadInfo (arenaStart s.arena) + j * KR_PAGE_SIZE)
    (hfresh : ∀ n < stk.limit, ∀ q,
      descend slot s.paging.tables 4 (cr3 d) q ≠ some (stk.struct n)) :
    DmapInv d stk s₀ [] (tablesOf []) s₀ := by
  have hroot := (h.backed h.pml4Aligned h.pml4).mono fun q l hq => (hs.walks q).trans hq
  refine ⟨PagingOnly.refl, rfl, hctx.symm, ?_, fun _ _ hq => hq, hroot, ?_, ?_, ?_, ?_, ?_, ?_, ?_⟩
  · rw [hs.paging]
    exact hpmm.symm
  · intro a ha k _ hk3 t ht
    rw [hs.descends, (h.nothing ha).2 k hk3] at ht
    exact absurd ht (by simp)
  · intro p q t hp hq
    rw [hs.descends] at hp hq
    exact h.tree p q t hp hq
  · exact fun b hb => absurd hb List.not_mem_nil
  · intro a ha _
    rw [hs.walks, (h.nothing ha).1]
  · intro a ha k _ hk3
    simp only [hs.descends, (h.nothing ha).2 k hk3]
    simp [tablesOf]
  · intro n _ hlt q
    rw [hs.descends]
    exact hfresh n hlt q
  · intro n _ hlt
    rw [hs.zero, if_pos (hzero n hlt)]

end start

section arena

def arenaContext (d : DmapLayout) (a : Arena) (n : Nat) : KrDirectMappingContext :=
  { startContext d a with
    workingCur := arenaStart a + n * KR_PAGE_SIZE
    numTotalAcqPageStructs := n }

theorem arenaContext_zero (d : DmapLayout) (a : Arena) : arenaContext d a 0 = startContext d a := by
  rw [arenaContext, Nat.zero_mul, Nat.add_zero]
  rfl

theorem arenaContext_last (h : DmapReady d s) (hn : n < arenaRoom s.arena)
    (pmm : KrPhysmemmgmtState) :
    krdmiGetPhysicalOfLastPageStruct (arenaContext d s.arena (n + 1)) pmm =
      krReservedVirtToPhys d.maps.loadInfo (arenaStart s.arena) + n * KR_PAGE_SIZE := by
  have hbound := h.structBound hn
  have hroom := h.room_lt
  have hsize : KR_PAGE_STRUCTURE_SIZE = KR_PAGE_SIZE := rfl
  have hpage : KR_PAGE_SIZE = 2 ^ 12 := by decide
  have hoffset : wrap32 (sub32 (n + 1) 1 * KR_PAGE_SIZE) = n * KR_PAGE_SIZE := by
    rw [sub32_of_le (by omega) (by omega), Nat.add_sub_cancel, hpage, wrap32_of_lt (by omega)]
  unfold krdmiGetPhysicalOfLastPageStruct arenaContext startContext
  dsimp only
  rw [if_pos (by exact hn), hsize, hoffset, wrap64_of_lt (by omega)]

theorem Started.supplies (hs : Started d s s₀) (h : DmapReady d s) (hn : n < arenaRoom s.arena)
    (hlim : n < stk.zeroed)
    (hstruct : stk.struct n =
      krReservedVirtToPhys d.maps.loadInfo (arenaStart s.arena) + n * KR_PAGE_SIZE)
    (hctx : ∀ m ≤ arenaRoom s.arena, stk.ctx m = arenaContext d s.arena m)
    (hpmm : stk.pmm (n + 1) = stk.pmm n) : Supplies d stk s₀ bs n := by
  have hvirt : krdmiGetVirtualOfPTE d s₀.arena (stk.struct n) =
      arenaStart s.arena + n * KR_PAGE_SIZE := by
    rw [hstruct, h.structVirt hn (by rw [hs.arena]) (by rw [hs.arena])]
  obtain ⟨h1, h2⟩ := h.page hn
  have h3 := h.bounds
  have h4 := h.arenaEnd
  have hpos : KR_PAGE_SIZE = 2 ^ 12 := by decide
  refine ⟨hlim.trans_le stk.zeroed_le, by rw [hvirt]; omega, fun T s' hinv _ => ?_,
    fun T s' hinv hcard => ?_⟩
  · rw [hvirt, hstruct]
    exact (h.structBacked hn).mono fun q l hq => hinv.kept q l ((hs.walks q).trans hq)
  · have hrow := hinv.tables.zero n hcard.le hlim
    have hsame : Function.update s'.paging.tables (stk.struct n) (fun _ => 0) = s'.paging.tables := by
      rw [← hrow, Function.update_eq_self]
    have hpmm' := hinv.pmm
    rw [hcard, ← hpmm] at hpmm'
    have hctx' := hinv.ctx
    rw [hcard, hctx n hn.le] at hctx'
    have hcur : wrap64 (arenaStart s.arena + n * KR_PAGE_SIZE + KR_PAGE_STRUCTURE_SIZE) =
        arenaStart s.arena + (n + 1) * KR_PAGE_SIZE := by
      have hsize : KR_PAGE_STRUCTURE_SIZE = KR_PAGE_SIZE := rfl
      rw [hsize, wrap64_of_lt (by omega), Nat.succ_mul, Nat.add_assoc]
    have htotal : wrap32 (n + 1) = n + 1 := by
      have hroom := h.room_lt
      exact wrap32_of_lt (by omega)
    rw [hvirt, hctx (n + 1) hn, hsame, ← hpmm']
    unfold krdmiAcquirePageStruct
    rw [hctx']
    unfold arenaContext
    dsimp only
    rw [if_pos (by exact hn), hcur, htotal]
    rfl

end arena

end Ych.Virtmemmgmt
