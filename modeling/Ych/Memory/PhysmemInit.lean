import Ych.Init.CanonicalMap
import Ych.Memory.PhysmemRun

/-! Which pages are free after `KrInitPhysmemmgmt`: every range update of the initialisation is
refused as a whole when it goes past the last page. -/
namespace Ych.Physmemmgmt
open Words Bitmap PageStatus BootstrapArena Memmap

variable {st : KrPhysmemmgmtState} {maps : KrMemoryMaps} {ds : List KrMemoryDescriptor}
  {start n p limit : Nat}

/-- An update of `n` pages from `start` on is accepted and reaches the page. -/
def Applies (nrPages start n p : Nat) : Prop :=
  wrap32 start + n ≤ nrPages ∧ wrap32 start ≤ p ∧ p < wrap32 start + n

instance (nrPages start n p : Nat) : Decidable (Applies nrPages start n p) :=
  inferInstanceAs (Decidable (_ ∧ _))

theorem bit_setAdvisory (st : KrPhysmemmgmtState) (start p : Nat) (status : Bool)
    (hn : n ≤ 2 ^ 63) : bit (setAdvisory st start n status).pAdvisoryBitmap p =
      if Applies st.nrPages start n p then status else bit st.pAdvisoryBitmap p := by
  have hw : wrap32 start + n < 2 ^ 64 := by
    have := wrap32_lt start
    omega
  change bit (krSetPhysicalPageStatus st.nrPages st.pAdvisoryBitmap (wrap32 start) n status).2 p = _
  by_cases h : wrap32 start + n ≤ st.nrPages
  · rw [(krSetPhysicalPageStatus_spec st.pAdvisoryBitmap status h hw).2 p]
    by_cases hr : wrap32 start ≤ p ∧ p < wrap32 start + n
    · rw [if_pos hr, if_pos (show Applies _ _ _ _ from ⟨h, hr⟩)]
    · rw [if_neg hr, if_neg fun hc : Applies _ _ _ _ => hr hc.2]
  · rw [krSetPhysicalPageStatus_refused st.pAdvisoryBitmap status (by rw [wrap64_of_lt hw]; omega),
      if_neg fun hc : Applies _ _ _ _ => h hc.1]

def Released (nrPages : Nat) (ds : List KrMemoryDescriptor) (p : Nat) : Prop :=
  ∃ d ∈ ds, Applies nrPages (d.physicalBase / KR_PAGE_SIZE) d.pageCount p

theorem release_foldl_sizes (ds : List KrMemoryDescriptor) :
    (ds.foldl release st).nrPages = st.nrPages ∧
      (ds.foldl release st).bitmapSize = st.bitmapSize := by
  induction ds generalizing st with
  | nil => exact ⟨rfl, rfl⟩
  | cons d ds ih =>
    have hstep : (release st d).nrPages = st.nrPages ∧
        (release st d).bitmapSize = st.bitmapSize := by
      unfold release
      dsimp only
      split <;> exact ⟨rfl, rfl⟩
    obtain ⟨h1, h2⟩ := @ih (release st d)
    exact ⟨h1.trans hstep.1, h2.trans hstep.2⟩

theorem release_frame (st : KrPhysmemmgmtState) (d : KrMemoryDescriptor) :
    (release st d).nrPages = st.nrPages ∧ (release st d).pAdvisoryBitmap =
      (setAdvisory st (d.physicalBase / KR_PAGE_SIZE) d.pageCount false).pAdvisoryBitmap := by
  unfold release
  dsimp only
  split <;> exact ⟨rfl, rfl⟩

theorem bit_release_foldl (st : KrPhysmemmgmtState) (p : Nat) (hd : ∀ d ∈ ds, d.pageCount ≤ 2 ^ 63) :
    (ds.foldl release st).nrPages = st.nrPages ∧
      (bit (ds.foldl release st).pAdvisoryBitmap p = false ↔
        bit st.pAdvisoryBitmap p = false ∨ Released st.nrPages ds p) := by
  induction ds generalizing st with
  | nil => exact ⟨rfl, by simp [Released]⟩
  | cons d ds ih =>
    obtain ⟨hnr, hadv⟩ := release_frame st d
    obtain ⟨h1, h2⟩ := @ih (release st d) fun e he => hd e (List.mem_cons_of_mem d he)
    refine ⟨h1.trans hnr, ?_⟩
    have hcons : Released st.nrPages (d :: ds) p ↔
        Applies st.nrPages (d.physicalBase / KR_PAGE_SIZE) d.pageCount p ∨
          Released st.nrPages ds p := by
      simp [Released]
    rw [List.foldl_cons, h2, hnr, hadv, hcons,
      bit_setAdvisory st _ p false (hd d List.mem_cons_self)]
    by_cases h : Applies st.nrPages (d.physicalBase / KR_PAGE_SIZE) d.pageCount p
    · simp [h]
    · simp [h]

theorem markAvailable_bit {maps : KrMemoryMaps}
    (hd : ∀ d ∈ maps.canonicalMemoryMap, d.pageCount ≤ 2 ^ 63)
    (hr : maps.loadInfo.reserveSize < 2 ^ 64) (hset : bit st.pAdvisoryBitmap p = true) :
    bit (markAvailable st maps).pAdvisoryBitmap p = false ↔
      Released st.nrPages maps.canonicalMemoryMap p ∧
      ¬Applies st.nrPages (maps.loadInfo.addrPhysicalBase / KR_PAGE_SIZE)
        (maps.loadInfo.reserveSize / KR_PAGE_SIZE) p ∧ ¬Applies st.nrPages 0 256 p := by
  obtain ⟨hnr, hrel⟩ := bit_release_foldl st p hd
  have hkernel : maps.loadInfo.reserveSize / KR_PAGE_SIZE ≤ 2 ^ 63 := by
    unfold KR_PAGE_SIZE
    omega
  have hmib : 1024 * 1024 / KR_PAGE_SIZE = 256 := by decide
  rw [hset] at hrel
  unfold markAvailable
  dsimp only
  rw [hmib, bit_setAdvisory _ _ _ _ (by decide), bit_setAdvisory _ _ _ _ hkernel]
  change (if Applies (maps.canonicalMemoryMap.foldl release st).nrPages 0 256 p then true else _)
    = false ↔ _
  rw [hnr]
  by_cases hlow : Applies st.nrPages 0 256 p
  · simp [hlow]
  · rw [if_neg hlow]
    by_cases hk : Applies st.nrPages (maps.loadInfo.addrPhysicalBase / KR_PAGE_SIZE)
        (maps.loadInfo.reserveSize / KR_PAGE_SIZE) p
    · simp [hk]
    · rw [if_neg hk, hrel]
      simp [hk, hlow]

/-- `NrPages`, which the first pass derives from the firmware map. -/
def mapPages (map : List KrMemoryDescriptor) : Nat :=
  (sizeBitmaps (map.foldl discover zeroState)).nrPages

theorem krInitPhysmemmgmt_free {mem : Bytes} {arena arena' : Arena}
    (hd : ∀ d ∈ maps.canonicalMemoryMap, d.pageCount ≤ 2 ^ 63)
    (hr : maps.loadInfo.reserveSize < 2 ^ 64)
    (hinit : krInitPhysmemmgmt zeroState maps mem arena = (true, st, arena')) :
    st.nrPages = mapPages maps.memoryMap ∧ st.bitmapSize ≠ 0 ∧ ∀ p < 8 * st.bitmapSize,
      (bit st.pAdvisoryBitmap p = false ↔
        Released st.nrPages maps.canonicalMemoryMap p ∧
        ¬Applies st.nrPages (maps.loadInfo.addrPhysicalBase / KR_PAGE_SIZE)
          (maps.loadInfo.reserveSize / KR_PAGE_SIZE) p ∧ ¬Applies st.nrPages 0 256 p) := by
  obtain ⟨s₀, s₁, advisory, primary, hs₀, hsize, hs₁, rfl⟩ := krInitPhysmemmgmt_ok hinit
  obtain ⟨hnr, hbitmap⟩ : s₁.nrPages = s₀.nrPages ∧ s₁.bitmapSize = s₀.bitmapSize := by
    rw [hs₁]
    exact release_foldl_sizes maps.canonicalMemoryMap
  refine ⟨by rw [mapPages, ← hs₀]; exact hnr, fun hz => hsize (hbitmap.symm.trans hz), ?_⟩
  intro p hp
  have hlt : p < 8 * s₀.bitmapSize := hbitmap ▸ hp
  have hset : bit (fill advisory 0 s₀.bitmapSize 0xFF#8) p = true := by
    have hbyte : (0xFF#8 : Byte) = fillByte true := rfl
    rw [hbyte, bit_fill, if_pos (by omega)]
  dsimp only
  rw [hnr, hs₁]
  exact markAvailable_bit hd hr hset

def InCanonical (maps : KrMemoryMaps) (p : Nat) : Prop :=
  ∃ d ∈ maps.canonicalMemoryMap, Covers KR_PAGE_SIZE d (p * KR_PAGE_SIZE)

def InKernel (maps : KrMemoryMaps) (p : Nat) : Prop :=
  maps.loadInfo.addrPhysicalBase ≤ p * KR_PAGE_SIZE ∧
    p * KR_PAGE_SIZE < maps.loadInfo.addrPhysicalBase + maps.loadInfo.reserveSize

/-- What the initialisation is for: the canonical pages are free, except the kernel's own and
those of the first MiB. -/
structure InitExact (maps : KrMemoryMaps) (st : KrPhysmemmgmtState) : Prop where
  free : ∀ p < st.nrPages, (bit st.pAdvisoryBitmap p = false ∧ bit st.pPrimaryBitmap p = false) ↔
    InCanonical maps p ∧ 256 ≤ p ∧ ¬InKernel maps p
  tail : ∀ p, st.nrPages ≤ p → p < 8 * st.bitmapSize →
    bit st.pAdvisoryBitmap p = true ∧ bit st.pPrimaryBitmap p = true

def Taken (maps : KrMemoryMaps) (nrPages p : Nat) : Prop :=
  Applies nrPages (maps.loadInfo.addrPhysicalBase / KR_PAGE_SIZE)
    (maps.loadInfo.reserveSize / KR_PAGE_SIZE) p ∨ Applies nrPages 0 256 p

def highestUsable (map : List KrMemoryDescriptor) : Nat :=
  (map.filter usable).foldl (fun highest d => max highest (regionEnd KR_PAGE_SIZE d)) 0

/-- The pages up to there, counted in 64 bits and kept in 32. -/
def memoryPages (map : List KrMemoryDescriptor) : Nat :=
  wrap32 (wrap64 (highestUsable map + 4095) / 4096)

/-- The updates for ranges that end, with their start cut to 32 bits, at or before the number of
pages leave the right pages. -/
def UpdatesReach (maps : KrMemoryMaps) : Prop :=
  ∀ p < memoryPages maps.memoryMap,
    (Released (memoryPages maps.memoryMap) maps.canonicalMemoryMap p ∧
      ¬Taken maps (memoryPages maps.memoryMap) p) ↔
    InCanonical maps p ∧ 256 ≤ p ∧ ¬InKernel maps p

theorem le_foldl_regionEnd (ds : List KrMemoryDescriptor) (k : Nat) :
    k ≤ ds.foldl (fun highest d => max highest (regionEnd KR_PAGE_SIZE d)) k := by
  induction ds generalizing k with
  | nil => exact le_rfl
  | cons d ds ih => exact (le_max_left k _).trans (ih _)

theorem regionEnd_le_foldl {d : KrMemoryDescriptor} (hd : d ∈ ds) (k : Nat) :
    regionEnd KR_PAGE_SIZE d ≤
      ds.foldl (fun highest d => max highest (regionEnd KR_PAGE_SIZE d)) k := by
  induction ds generalizing k with
  | nil => exact absurd hd List.not_mem_nil
  | cons e ds ih =>
    rw [List.foldl_cons]
    rcases List.mem_cons.mp hd with rfl | hd
    · exact (le_max_right k _).trans (le_foldl_regionEnd ds _)
    · exact ih hd _

theorem regionEnd_le_highestUsable {map : List KrMemoryDescriptor} {d : KrMemoryDescriptor}
    (hd : d ∈ map) (huse : usable d = true) : regionEnd KR_PAGE_SIZE d ≤ highestUsable map :=
  regionEnd_le_foldl (List.mem_filter.mpr ⟨hd, huse⟩) 0

theorem highestUsable_le {map : List KrMemoryDescriptor} {limit : Nat}
    (hends : ∀ d ∈ map, usable d = true → regionEnd KR_PAGE_SIZE d ≤ limit) :
    highestUsable map ≤ limit := by
  have hfold : ∀ (ds : List KrMemoryDescriptor) (k : Nat), k ≤ limit →
      (∀ d ∈ ds, regionEnd KR_PAGE_SIZE d ≤ limit) →
      ds.foldl (fun highest d => max highest (regionEnd KR_PAGE_SIZE d)) k ≤ limit := by
    intro ds
    induction ds with
    | nil => exact fun k hk _ => hk
    | cons d ds ih =>
      intro k hk hds
      exact ih _ (max_le hk (hds d List.mem_cons_self)) fun e he =>
        hds e (List.mem_cons_of_mem d he)
  exact hfold _ 0 (Nat.zero_le _) fun d hd =>
    hends d (List.mem_filter.mp hd).1 (List.mem_filter.mp hd).2

theorem discover_foldl {map : List KrMemoryDescriptor}
    (hends : ∀ d ∈ map, usable d = true → regionEnd KR_PAGE_SIZE d < 2 ^ 64) :
    (map.foldl discover st).paddrHighest = (map.filter usable).foldl
      (fun highest d => max highest (regionEnd KR_PAGE_SIZE d)) st.paddrHighest := by
  induction map generalizing st with
  | nil => rfl
  | cons d map ih =>
    rw [List.foldl_cons, ih fun e he => hends e (List.mem_cons_of_mem d he)]
    cases huse : usable d with
    | false =>
      have hkind : krIsUsableMemoryRegionType d.type = false := huse
      rw [List.filter_cons_of_neg (by simp [huse])]
      simp [discover, hkind]
    | true =>
      have hkind : krIsUsableMemoryRegionType d.type = true := huse
      have hend := hends d List.mem_cons_self huse
      unfold regionEnd base at hend
      have hinner : wrap64 (d.pageCount * KR_PAGE_SIZE) = d.pageCount * KR_PAGE_SIZE :=
        wrap64_of_lt (by omega)
      have houter : wrap64 (d.physicalBase + d.pageCount * KR_PAGE_SIZE) =
          regionEnd KR_PAGE_SIZE d := wrap64_of_lt (by omega)
      rw [List.filter_cons_of_pos huse, List.foldl_cons]
      congr 1
      simp only [discover, hkind, if_true, hinner, houter]
      by_cases h : regionEnd KR_PAGE_SIZE d > st.paddrHighest
      · rw [if_pos h, max_eq_right h.le]
      · rw [if_neg h, max_eq_left (Nat.not_lt.mp h)]

theorem mapPages_eq {map : List KrMemoryDescriptor}
    (hends : ∀ d ∈ map, usable d = true → regionEnd KR_PAGE_SIZE d < 2 ^ 64) :
    mapPages map = memoryPages map := by
  have hfold : (map.foldl discover zeroState).paddrHighest = highestUsable map :=
    discover_foldl hends
  have hlast : sub64 (wrap64 (highestUsable map + 4096)) 1 = wrap64 (highestUsable map + 4095) := by
    unfold sub64 wrap64
    omega
  have hpage : KR_PAGE_SIZE = 4096 := rfl
  unfold mapPages sizeBitmaps memoryPages
  dsimp only
  rw [hfold, hpage, hlast]

theorem peekAhead_end {b n : Nat} {rest : List KrMemoryDescriptor} (hlimit : limit < 2 ^ 64)
    (hfits : b + n * KR_PAGE_SIZE ≤ limit)
    (hends : ∀ d ∈ rest, usable d = true → regionEnd KR_PAGE_SIZE d ≤ limit) :
    b + (peekAhead KR_PAGE_SIZE b n rest).2 * KR_PAGE_SIZE ≤ limit := by
  induction rest generalizing n with
  | nil => exact hfits
  | cons d rest ih =>
    have hpage : KR_PAGE_SIZE = 4096 := rfl
    have hinner : wrap64 (n * KR_PAGE_SIZE) = n * KR_PAGE_SIZE := wrap64_of_lt (by omega)
    rw [peekAhead, hinner, wrap64_of_lt (by omega)]
    by_cases hmerge : krIsUsableMemoryRegionType d.type = true ∧
        b + n * KR_PAGE_SIZE = d.physicalBase
    · obtain ⟨huse, hadj⟩ := hmerge
      have hend := hends d List.mem_cons_self huse
      unfold regionEnd base at hend
      have hnext : b + (n + d.pageCount) * KR_PAGE_SIZE ≤ limit := by
        rw [Nat.add_mul]
        omega
      have hcount : wrap64 (n + d.pageCount) = n + d.pageCount := by
        have hle := Nat.le_mul_of_pos_right (n + d.pageCount) (by decide : 0 < KR_PAGE_SIZE)
        exact wrap64_of_lt (by omega)
      rw [huse, hadj, if_neg (by simp), hcount]
      exact ih hnext fun e he => hends e (List.mem_cons_of_mem d he)
    · rw [if_pos ?_]
      · exact hfits
      · rw [not_and_or, Bool.not_eq_true] at hmerge
        rcases hmerge with h | h
        · rw [h]
          rfl
        · simp [h]

theorem buildCanonicalFrom_inside {fuel : Nat} {map : List KrMemoryDescriptor}
    (hlimit : limit < 2 ^ 64)
    (hmap : ∀ d ∈ map, usable d = true →
      KR_PAGE_SIZE ∣ d.physicalBase ∧ regionEnd KR_PAGE_SIZE d ≤ limit) :
    ∀ d ∈ buildCanonicalFrom KR_PAGE_SIZE fuel map,
      KR_PAGE_SIZE ∣ d.physicalBase ∧ regionEnd KR_PAGE_SIZE d ≤ limit := by
  induction fuel generalizing map with
  | zero => exact fun d hd => absurd hd List.not_mem_nil
  | succ fuel ih =>
    cases map with
    | nil => exact fun d hd => absurd hd List.not_mem_nil
    | cons m rest =>
      have hrest : ∀ e ∈ rest, usable e = true →
          KR_PAGE_SIZE ∣ e.physicalBase ∧ regionEnd KR_PAGE_SIZE e ≤ limit := fun e he =>
        hmap e (List.mem_cons_of_mem m he)
      rw [buildCanonicalFrom]
      cases huse : krIsUsableMemoryRegionType m.type with
      | false =>
        rw [if_pos (by rfl)]
        exact ih hrest
      | true =>
        obtain ⟨halign, hend⟩ := hmap m List.mem_cons_self huse
        rw [if_neg (by simp)]
        intro d hd
        rcases List.mem_cons.mp hd with rfl | hd
        · exact ⟨halign, peekAhead_end hlimit hend fun e he hu => (hrest e he hu).2⟩
        · exact ih (fun e he => hrest e (List.mem_of_mem_drop he)) d hd

theorem released_iff {maps : KrMemoryMaps} {nrPages : Nat}
    (hcanonical : ∀ d ∈ maps.canonicalMemoryMap,
      KR_PAGE_SIZE ∣ d.physicalBase ∧ regionEnd KR_PAGE_SIZE d ≤ nrPages * KR_PAGE_SIZE)
    (hnr : nrPages ≤ 2 ^ 32) :
    Released nrPages maps.canonicalMemoryMap p ↔ InCanonical maps p := by
  refine exists_congr fun d => and_congr_right fun hd => ?_
  obtain ⟨⟨k, hk⟩, hend⟩ := hcanonical d hd
  have hpage : KR_PAGE_SIZE = 4096 := rfl
  unfold regionEnd base at hend
  unfold Applies Covers regionEnd base wrap32
  rw [hk, hpage] at hend
  rw [hk, hpage, Nat.mul_div_cancel_left k (by decide)]
  by_cases hempty : d.pageCount = 0
  · rw [hempty]
    omega
  · have hsmall : k % 2 ^ 32 = k := Nat.mod_eq_of_lt (by omega)
    rw [hsmall]
    omega

theorem krInitPhysmemmgmt_postInit {mem : Bytes} {arena arena' : Arena} (hlimit : limit < 2 ^ 64)
    (hcanonical : ∀ d ∈ maps.canonicalMemoryMap, regionEnd KR_PAGE_SIZE d ≤ limit)
    (hr : maps.loadInfo.reserveSize < 2 ^ 64)
    (hinit : krInitPhysmemmgmt zeroState maps mem arena = (true, st, arena')) : PostInit st :=
  ⟨maps, mem, arena, arena', fun d hd => (hcanonical d hd).trans hlimit.le, hr, hinit⟩

theorem initExact_iff_updatesReach {mem : Bytes} {arena arena' : Arena} (hlimit : limit < 2 ^ 64)
    (hcanonical : ∀ d ∈ maps.canonicalMemoryMap, regionEnd KR_PAGE_SIZE d ≤ limit)
    (hr : maps.loadInfo.reserveSize < 2 ^ 64)
    (hpages : mapPages maps.memoryMap = memoryPages maps.memoryMap)
    (hinit : krInitPhysmemmgmt zeroState maps mem arena = (true, st, arena')) :
    InitExact maps st ↔ UpdatesReach maps := by
  have hbooted := (krInitPhysmemmgmt_postInit hlimit hcanonical hr hinit).booted
  have hcount : ∀ d ∈ maps.canonicalMemoryMap, d.pageCount ≤ 2 ^ 63 := by
    intro d hd
    have hend := hcanonical d hd
    unfold regionEnd KR_PAGE_SIZE at hend
    omega
  obtain ⟨hnr, _, hfree⟩ := krInitPhysmemmgmt_free hcount hr hinit
  rw [hpages] at hnr
  have hcover := hbooted.sized.covers.1
  have hboth : ∀ p < st.nrPages,
      ((bit st.pAdvisoryBitmap p = false ∧ bit st.pPrimaryBitmap p = false) ↔
        Released st.nrPages maps.canonicalMemoryMap p ∧ ¬Taken maps st.nrPages p) := by
    intro p hp
    rw [hbooted.copied p (by omega), and_self, hfree p (by omega), Taken, not_or]
  constructor
  · intro h p hp
    rw [← hnr] at hp ⊢
    exact (hboth p hp).symm.trans (h.free p hp)
  · intro h
    refine ⟨fun p hp => ?_, fun p h1 h2 => ⟨hbooted.advisoryTail p h1 h2, hbooted.tailSet p h1 h2⟩⟩
    have hp' := h p (hnr ▸ hp)
    rw [← hnr] at hp'
    exact (hboth p hp).trans hp'

theorem taken_inside {nrPages : Nat} (hbase : KR_PAGE_SIZE ∣ maps.loadInfo.addrPhysicalBase)
    (hsize : KR_PAGE_SIZE ∣ maps.loadInfo.reserveSize)
    (hlow : maps.loadInfo.addrPhysicalBase < 2 ^ 44) (h : Taken maps nrPages p) :
    InKernel maps p ∨ p < 256 := by
  obtain ⟨k, hk⟩ := hbase
  obtain ⟨n, hn⟩ := hsize
  have hpage : KR_PAGE_SIZE = 4096 := rfl
  have hzero : wrap32 0 = 0 := rfl
  unfold Taken Applies InKernel at *
  rw [hk, hpage] at hlow
  rw [hk, hn, hpage, Nat.mul_div_cancel_left k (by decide),
    Nat.mul_div_cancel_left n (by decide), hzero, wrap32_of_lt (by omega)] at h
  rw [hk, hn, hpage]
  omega

/-- The regions of the canonical map are released whole, unless there are too few pages. -/
theorem released_canonicalMap {nrPages : Nat}
    (hcanonical : maps.canonicalMemoryMap = buildCanonicalMap KR_PAGE_SIZE maps.memoryMap)
    (hmap : ∀ d ∈ maps.memoryMap, usable d = true → KR_PAGE_SIZE ∣ d.physicalBase)
    (hhighest : highestUsable maps.memoryMap < 2 ^ 64)
    (hpages : highestUsable maps.memoryMap ≤ nrPages * KR_PAGE_SIZE) (hnr : nrPages ≤ 2 ^ 32) :
    Released nrPages maps.canonicalMemoryMap p ↔ InCanonical maps p := by
  refine released_iff (fun d hd => ?_) hnr
  rw [hcanonical] at hd
  obtain ⟨hdvd, hend⟩ := buildCanonicalFrom_inside hhighest (fun e he huse =>
    ⟨hmap e he huse, regionEnd_le_highestUsable he huse⟩) d hd
  exact ⟨hdvd, hend.trans hpages⟩

theorem page_reached_iff {nrPages : Nat}
    (hreleased : Released nrPages maps.canonicalMemoryMap p ↔ InCanonical maps p)
    (hinner : Taken maps nrPages p → InKernel maps p ∨ p < 256) :
    (Released nrPages maps.canonicalMemoryMap p ∧ ¬Taken maps nrPages p ↔
        InCanonical maps p ∧ 256 ≤ p ∧ ¬InKernel maps p) ↔
      (InCanonical maps p → InKernel maps p ∨ p < 256 → Taken maps nrPages p) := by
  rw [hreleased]
  constructor
  · intro h hin hres
    by_contra hnot
    obtain ⟨_, h1, h2⟩ := h.mp ⟨hin, hnot⟩
    exact hres.elim h2 fun h3 => by omega
  · intro h
    constructor
    · rintro ⟨hin, hnot⟩
      refine ⟨hin, Nat.not_lt.mp fun h1 => hnot (h hin (Or.inr h1)), fun h2 => ?_⟩
      exact hnot (h hin (Or.inl h2))
    · rintro ⟨hin, h1, h2⟩
      refine ⟨hin, fun ht => (hinner ht).elim h2 fun h3 => by omega⟩

/-- Free are exactly the pages that should be, if and only if no update that matters is refused. -/
theorem krInitPhysmemmgmt_exact_iff {mem : Bytes} {arena arena' : Arena}
    (hcanonical : maps.canonicalMemoryMap = buildCanonicalMap KR_PAGE_SIZE maps.memoryMap)
    (hmap : ∀ d ∈ maps.memoryMap, usable d = true →
      KR_PAGE_SIZE ∣ d.physicalBase ∧ regionEnd KR_PAGE_SIZE d < 2 ^ 64)
    (hbase : KR_PAGE_SIZE ∣ maps.loadInfo.addrPhysicalBase)
    (hsize : KR_PAGE_SIZE ∣ maps.loadInfo.reserveSize)
    (hreserve : maps.loadInfo.reserveSize < 2 ^ 64)
    (hinit : krInitPhysmemmgmt zeroState maps mem arena = (true, st, arena')) :
    (InitExact maps st ↔ UpdatesReach maps) ∧
      ((∀ d ∈ maps.memoryMap, usable d = true → regionEnd KR_PAGE_SIZE d ≤ 2 ^ 44) →
        maps.loadInfo.addrPhysicalBase < 2 ^ 44 →
        (InitExact maps st ↔ ∀ p < (highestUsable maps.memoryMap + 4095) / 4096,
          InCanonical maps p → InKernel maps p ∨ p < 256 →
            Taken maps ((highestUsable maps.memoryMap + 4095) / 4096) p)) := by
  have hinside : ∀ d ∈ maps.canonicalMemoryMap,
      KR_PAGE_SIZE ∣ d.physicalBase ∧ regionEnd KR_PAGE_SIZE d ≤ 2 ^ 64 - 1 := by
    rw [hcanonical]
    exact buildCanonicalFrom_inside (by decide) fun d hd huse =>
      ⟨(hmap d hd huse).1, Nat.le_pred_of_lt (hmap d hd huse).2⟩
  have hmemory := mapPages_eq fun d hd huse => (hmap d hd huse).2
  have hreach := initExact_iff_updatesReach (by decide) (fun d hd => (hinside d hd).2) hreserve
    hmemory hinit
  refine ⟨hreach, fun hends hlow => hreach.trans ?_⟩
  have hmax := highestUsable_le hends
  have hbooted := (krInitPhysmemmgmt_postInit (by decide) (fun d hd => (hinside d hd).2) hreserve
    hinit).booted
  have hcount : ∀ d ∈ maps.canonicalMemoryMap, d.pageCount ≤ 2 ^ 63 := by
    intro d hd
    have hend := (hinside d hd).2
    unfold regionEnd KR_PAGE_SIZE at hend
    omega
  obtain ⟨hnr, hpos, _⟩ := krInitPhysmemmgmt_free hcount hreserve hinit
  -- `NrPages` did not wrap around, or there would be no bitmap
  have hpages : memoryPages maps.memoryMap = (highestUsable maps.memoryMap + 4095) / 4096 := by
    have hsized := hbooted.sized.size
    rw [hnr, hmemory] at hsized
    unfold memoryPages at hsized ⊢
    rw [wrap64_of_lt (by omega)] at hsized ⊢
    unfold wrap32 at hsized ⊢
    omega
  have henough : highestUsable maps.memoryMap ≤ memoryPages maps.memoryMap * KR_PAGE_SIZE := by
    rw [hpages, show KR_PAGE_SIZE = 4096 from rfl]
    omega
  unfold UpdatesReach
  rw [← hpages]
  refine forall_congr' fun p => imp_congr_right fun _ => ?_
  refine page_reached_iff ?_ (taken_inside hbase hsize hlow)
  exact released_canonicalMap hcanonical (fun d hd huse => (hmap d hd huse).1) (by omega) henough
    (by omega)

def kernelAtTheEnd : KrMemoryMaps :=
  { memoryMap := [⟨0, 300, 0, KR_MEMORY_TYPE_CONVENTIONAL_MEMORY, 0⟩]
    canonicalMemoryMap := [⟨0, 300, 0, KR_MEMORY_TYPE_CONVENTIONAL_MEMORY, 0⟩]
    loadInfo := ⟨0x40000, 0x104000, 0⟩ }

theorem kernel_pages_free :
    ∃ st arena', kernelAtTheEnd.canonicalMemoryMap =
        buildCanonicalMap KR_PAGE_SIZE kernelAtTheEnd.memoryMap ∧
      krInitPhysmemmgmt zeroState kernelAtTheEnd (fun _ => 0#8) ⟨4096, 4096, 8192⟩ =
        (true, st, arena') ∧
      InKernel kernelAtTheEnd 260 ∧ bit st.pAdvisoryBitmap 260 = false ∧
      bit st.pPrimaryBitmap 260 = false ∧ ¬InitExact kernelAtTheEnd st := by
  have hkernel : InKernel kernelAtTheEnd 260 := ⟨by decide, by decide⟩
  refine ⟨_, _, by decide, eq_of_succeeded (by decide +kernel), hkernel, by decide +kernel,
    by decide +kernel, fun h => ?_⟩
  exact ((h.free 260 (by decide +kernel)).mp ⟨by decide +kernel, by decide +kernel⟩).2.2 hkernel

theorem krInitPhysmemmgmt_exact_iff_small : InitExact smallMaps smallBoot := by
  have hinit : krInitPhysmemmgmt zeroState smallMaps (fun _ => 0#8) ⟨4096, 4096, 8192⟩ =
      (true, smallBoot, _) := eq_of_succeeded (by decide +kernel)
  refine ((krInitPhysmemmgmt_exact_iff (by decide) (by decide) (by decide) (by decide) (by decide)
    hinit).2 (by decide) (by decide)).mpr fun p _ _ hres => ?_
  rcases hres with hkernel | hlow
  · exact absurd hkernel.2 (by simp [smallMaps])
  · exact Or.inr ⟨by decide, Nat.zero_le p, hlow⟩

end Ych.Physmemmgmt
