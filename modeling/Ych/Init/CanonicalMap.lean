import Mathlib.Data.List.Nodup
import Ych.Init.QuicksortMemmap

/-! The canonical map: the maximal runs of usable memory, in order. -/
namespace Ych.Memmap
open Words LomutoSplit Physmemmgmt BootstrapArena

variable {pageSize n b fuel : Nat} {map rest : Descriptors} {d : KrMemoryDescriptor}

def regionEnd (pageSize : Nat) (d : KrMemoryDescriptor) : Nat := base d + d.pageCount * pageSize

def Covers (pageSize : Nat) (d : KrMemoryDescriptor) (a : Nat) : Prop :=
  base d ≤ a ∧ a < regionEnd pageSize d

def usable (d : KrMemoryDescriptor) : Bool := krIsUsableMemoryRegionType d.type

/-- Sorted by base address, without overlaps and without empty descriptors. -/
structure MapOk (pageSize : Nat) (map : Descriptors) : Prop where
  nonempty : ∀ d ∈ map, 0 < d.pageCount
  apart : map.Pairwise fun d e => regionEnd pageSize d ≤ base e
  fits : ∀ d ∈ map, regionEnd pageSize d ≤ 2 ^ 64

/-- The maximal runs of the usable descriptors: apart from each other, not even adjacent. -/
structure CanonicalOf (pageSize : Nat) (map canonical : Descriptors) : Prop where
  apart : canonical.Pairwise fun d e => regionEnd pageSize d < base e
  nonempty : ∀ d ∈ canonical, 0 < d.pageCount
  union : ∀ a, (∃ d ∈ canonical, Covers pageSize d a) ↔
    ∃ d ∈ map, usable d = true ∧ Covers pageSize d a
  count : canonical.length ≤ map.length

theorem MapOk.tail (h : MapOk pageSize (d :: rest)) : MapOk pageSize rest :=
  ⟨fun e he => h.nonempty e (List.mem_cons_of_mem d he), (List.pairwise_cons.mp h.apart).2,
    fun e he => h.fits e (List.mem_cons_of_mem d he)⟩

theorem MapOk.drop (h : MapOk pageSize map) (k : Nat) : MapOk pageSize (map.drop k) :=
  ⟨fun e he => h.nonempty e (List.mem_of_mem_drop he), h.apart.sublist (List.drop_sublist k map),
    fun e he => h.fits e (List.mem_of_mem_drop he)⟩

theorem base_lt_regionEnd (hps : 2 ≤ pageSize) (h : 0 < d.pageCount) :
    base d < regionEnd pageSize d :=
  Nat.lt_add_of_pos_right (Nat.mul_pos h (by omega))

/-- What the look-ahead finds from a region that ends at `b + n * pageSize`. -/
structure Merged (pageSize b n : Nat) (rest : Descriptors) (r : Nat × Nat) : Prop where
  grows : n ≤ r.2
  fits : b + r.2 * pageSize ≤ 2 ^ 64
  union : ∀ a, (b ≤ a ∧ a < b + r.2 * pageSize) ↔ (b ≤ a ∧ a < b + n * pageSize) ∨
    ∃ d ∈ rest.take r.1, usable d = true ∧ Covers pageSize d a
  taken : ∀ d ∈ rest.take r.1, usable d = true
  behind : ∀ d ∈ rest.drop r.1, usable d = true → b + r.2 * pageSize < base d

variable {r : Nat × Nat} {canonical : Descriptors}

theorem Merged.stop (hfits : b + n * pageSize ≤ 2 ^ 64)
    (hbehind : ∀ e ∈ rest, usable e = true → b + n * pageSize < base e) :
    Merged pageSize b n rest (0, n) :=
  ⟨le_rfl, hfits, fun a => by simp, fun e he => by simp at he, hbehind⟩

theorem Merged.cons (huse : usable d = true) (hadj : b + n * pageSize = base d)
    (h : Merged pageSize b (n + d.pageCount) rest r) :
    Merged pageSize b n (d :: rest) (r.1 + 1, r.2) := by
  have hnext : b + (n + d.pageCount) * pageSize = regionEnd pageSize d := by
    rw [Nat.add_mul, ← Nat.add_assoc, hadj]
    rfl
  have hle : base d ≤ regionEnd pageSize d := Nat.le_add_right _ _
  refine ⟨(Nat.le_add_right n _).trans h.grows, h.fits, fun a => ?_, fun e he => ?_,
    fun e he => ?_⟩
  · rw [h.union a, hnext, List.take_succ_cons, List.exists_mem_cons_iff, ← or_assoc]
    refine or_congr_left ?_
    unfold Covers
    constructor
    · rintro ⟨h1, h2⟩
      by_cases h3 : a < b + n * pageSize
      · exact Or.inl ⟨h1, h3⟩
      · exact Or.inr ⟨huse, by omega, h2⟩
    · rintro (⟨h1, h2⟩ | ⟨_, h1, h2⟩)
      · exact ⟨h1, by omega⟩
      · exact ⟨by omega, h2⟩
  · rw [List.take_succ_cons, List.mem_cons] at he
    rcases he with rfl | he
    · exact huse
    · exact h.taken e he
  · rw [List.drop_succ_cons] at he
    exact h.behind e he

theorem peekAhead_merged (hps : 2 ≤ pageSize) (hok : MapOk pageSize rest)
    (hfits : b + n * pageSize ≤ 2 ^ 64) (hbehind : ∀ d ∈ rest, b + n * pageSize ≤ base d) :
    Merged pageSize b n rest (peekAhead pageSize b n rest) := by
  induction rest generalizing n with
  | nil => exact Merged.stop hfits fun e he => absurd he List.not_mem_nil
  | cons d rest ih =>
    have hpos := hok.nonempty d List.mem_cons_self
    have hle := hbehind d List.mem_cons_self
    have hend := hok.fits d List.mem_cons_self
    have hlt := base_lt_regionEnd hps hpos
    have hinner : wrap64 (n * pageSize) = n * pageSize := wrap64_of_lt (by omega)
    have hwrap : wrap64 (b + wrap64 (n * pageSize)) = b + n * pageSize := by
      rw [hinner, wrap64_of_lt (by omega)]
    rw [peekAhead, hwrap]
    by_cases hstop : krIsUsableMemoryRegionType d.type = true ∧ b + n * pageSize = base d
    · obtain ⟨huse, hadj⟩ := hstop
      have hsum : b + (n + d.pageCount) * pageSize = regionEnd pageSize d := by
        rw [Nat.add_mul, ← Nat.add_assoc, hadj]
        rfl
      have hcount : wrap64 (n + d.pageCount) = n + d.pageCount := by
        refine wrap64_of_lt ?_
        have htwo : (n + d.pageCount) * 2 ≤ (n + d.pageCount) * pageSize :=
          Nat.mul_le_mul_left _ hps
        omega
      rw [huse, hadj, if_neg (by simp)]
      dsimp only
      rw [hcount]
      refine Merged.cons huse hadj (ih hok.tail (hsum ▸ hend) fun e he => ?_)
      exact hsum ▸ (List.pairwise_cons.mp hok.apart).1 e he
    · have hif : (!krIsUsableMemoryRegionType d.type ||
          decide (b + n * pageSize ≠ d.physicalBase)) = true := by
        rw [not_and_or, Bool.not_eq_true] at hstop
        rcases hstop with h | h
        · rw [h]
          rfl
        · simp [h]
      rw [if_pos hif]
      refine Merged.stop hfits fun e he huse => ?_
      rcases List.mem_cons.mp he with rfl | he
      · exact lt_of_le_of_ne hle fun h => hstop ⟨huse, h⟩
      · have hlater := (List.pairwise_cons.mp hok.apart).1 e he
        omega

theorem CanonicalOf.skip (h : CanonicalOf pageSize rest canonical) (hd : usable d = false) :
    CanonicalOf pageSize (d :: rest) canonical := by
  refine ⟨h.apart, h.nonempty, fun a => ?_, ?_⟩
  · rw [h.union a, List.exists_mem_cons_iff, hd]
    simp
  · rw [List.length_cons]
    exact h.count.trans (Nat.le_succ _)

/-- The run that begins with `d`, in front of the runs behind what was merged into it. -/
theorem CanonicalOf.cons {c : KrMemoryDescriptor}
    (h : CanonicalOf pageSize (rest.drop r.1) canonical) (hd : usable d = true)
    (hpos : 0 < d.pageCount) (hmerged : Merged pageSize (base d) d.pageCount rest r)
    (hbase : base c = base d) (hcount : c.pageCount = r.2)
    (hbehind : ∀ e ∈ canonical, base d + r.2 * pageSize < base e) :
    CanonicalOf pageSize (d :: rest) (c :: canonical) := by
  have hend : regionEnd pageSize c = base d + r.2 * pageSize := by
    rw [regionEnd, hbase, hcount]
  refine ⟨List.pairwise_cons.mpr ⟨?_, h.apart⟩, fun e he => ?_, fun a => ?_, ?_⟩
  · rw [hend]
    exact hbehind
  · rcases List.mem_cons.mp he with rfl | he
    · rw [hcount]
      exact hpos.trans_le hmerged.grows
    · exact h.nonempty e he
  · rw [List.exists_mem_cons_iff, h.union a, List.exists_mem_cons_iff]
    have hsplit : (∃ e ∈ rest, usable e = true ∧ Covers pageSize e a) ↔
        (∃ e ∈ rest.take r.1, usable e = true ∧ Covers pageSize e a) ∨
          ∃ e ∈ rest.drop r.1, usable e = true ∧ Covers pageSize e a := by
      conv_lhs => rw [← List.take_append_drop r.1 rest]
      simp only [List.mem_append, or_and_right, exists_or]
    rw [hsplit, ← or_assoc]
    refine or_congr_left ?_
    rw [Covers, hend, hbase, hmerged.union a, hd, Covers, regionEnd]
    simp
  · have hdrop : (rest.drop r.1).length ≤ rest.length := by
      rw [List.length_drop]
      omega
    rw [List.length_cons, List.length_cons]
    have := h.count
    omega

theorem buildCanonicalFrom_spec (hps : 2 ≤ pageSize) (hok : MapOk pageSize map)
    (hfuel : map.length ≤ fuel) :
    CanonicalOf pageSize map (buildCanonicalFrom pageSize fuel map) ∧
      ∀ b, (∀ d ∈ map, usable d = true → b < base d) →
        ∀ d ∈ buildCanonicalFrom pageSize fuel map, b < base d := by
  induction fuel generalizing map with
  | zero =>
    obtain rfl := List.eq_nil_of_length_eq_zero (Nat.le_zero.mp hfuel)
    exact ⟨⟨List.Pairwise.nil, by simp [buildCanonicalFrom], by simp [buildCanonicalFrom], le_rfl⟩,
      by simp [buildCanonicalFrom]⟩
  | succ fuel ih =>
    cases map with
    | nil =>
      exact ⟨⟨List.Pairwise.nil, by simp [buildCanonicalFrom], by simp [buildCanonicalFrom],
        le_rfl⟩, by simp [buildCanonicalFrom]⟩
    | cons d rest =>
      rw [List.length_cons] at hfuel
      rw [buildCanonicalFrom]
      cases huse : krIsUsableMemoryRegionType d.type with
      | false =>
        obtain ⟨hrest, hbehind⟩ := ih hok.tail (by omega)
        rw [if_pos (by rfl)]
        refine ⟨hrest.skip huse, fun b hb => ?_⟩
        exact hbehind b fun e he => hb e (List.mem_cons_of_mem d he)
      | true =>
        have hmerged : Merged pageSize (base d) d.pageCount rest
            (peekAhead pageSize d.physicalBase d.pageCount rest) :=
          peekAhead_merged hps hok.tail (hok.fits d List.mem_cons_self)
            (List.pairwise_cons.mp hok.apart).1
        rw [if_neg (by simp)]
        dsimp only
        generalize peekAhead pageSize d.physicalBase d.pageCount rest = r at hmerged ⊢
        have hdrop : (rest.drop r.1).length ≤ rest.length := by
          rw [List.length_drop]
          omega
        obtain ⟨hrest, hbehind⟩ := ih (hok.tail.drop r.1) (by omega)
        have hpos := hok.nonempty d List.mem_cons_self
        refine ⟨hrest.cons huse hpos hmerged rfl rfl (hbehind _ hmerged.behind),
          fun b hb e he => ?_⟩
        rcases List.mem_cons.mp he with rfl | he
        · exact hb d List.mem_cons_self huse
        · refine hbehind b (fun e he => ?_) e he
          exact hb e (List.mem_cons_of_mem d (List.mem_of_mem_drop he))

theorem buildCanonicalMap_spec (hps : 2 ≤ pageSize) (hok : MapOk pageSize map) :
    CanonicalOf pageSize map (buildCanonicalMap pageSize map) :=
  (buildCanonicalFrom_spec hps hok le_rfl).1

theorem MapOk.increasing (hps : 2 ≤ pageSize) (hok : MapOk pageSize map) :
    map.Pairwise fun d e => base d < base e :=
  hok.apart.imp_of_mem fun {d _} hd _ hle =>
    (base_lt_regionEnd hps (hok.nonempty d hd)).trans_le hle

theorem krQuicksortMemmap_increasing (hne : map ≠ []) (hint : map.length ≤ 2 ^ 31)
    (hinc : map.Pairwise fun d e => base d < base e) :
    krQuicksortMemmap (map.length + 1) map 0 (map.length - 1) = some map := by
  have hpos := List.length_pos_iff.mpr hne
  have hsafe : LeftSafe base map := by
    rw [leftSafe_iff]
    cases map with
    | nil => exact absurd rfl hne
    | cons m rest =>
      cases rest with
      | nil => exact Or.inl rfl
      | cons s rest =>
        right
        obtain ⟨hm, hs⟩ := List.pairwise_cons.mp hinc
        refine ⟨[], m, s :: rest, s, rfl, List.mem_cons_self, hm s List.mem_cons_self,
          fun d hd => ?_⟩
        rw [List.nil_append] at hd
        rcases List.mem_cons.mp hd with rfl | hd
        · exact le_rfl
        · exact ((List.pairwise_cons.mp hs).1 d hd).le
  obtain ⟨out, hrun, hperm, hsorted⟩ := krQuicksortMemmap_sorts (map.length + 1) [] map []
    (map.length - 1) (by omega) (by simpa using hint) (by rw [List.length_nil]; omega)
    (Or.inr hsafe)
  simp only [List.nil_append, List.append_nil, List.length_nil] at hrun
  have heq : out = map := by
    refine List.Perm.eq_of_pairwise (fun d e hd he h1 h2 => ?_) hsorted
      (hinc.imp fun h => h.le) hperm
    have hnodup : (map.map base).Nodup := List.pairwise_map.mpr (hinc.imp fun h => h.ne)
    exact List.inj_on_of_nodup_map hnodup (hperm.mem_iff.mp hd) he (le_antisymm h1 h2)
  rw [hrun, heq]

/-- The arena has room for both copies of a map of `n` bytes, and for their alignment. -/
structure RoomForMaps (arena : Arena) (n : Nat) : Prop where
  placed : 0 < arena.pPtr
  size : 0 < n
  room : arena.pPtr + 2 * (n + 30) ≤ arena.pEnd
  bounded : arena.pEnd < 2 ^ 64

theorem krBootstrapArenaAcquire_aligned (arena : Arena) (hn : 0 < n)
    (hroom : arena.pPtr + (n + 30) ≤ arena.pEnd) (htop : arena.pEnd < 2 ^ 64) :
    arena.pPtr ≤ (krBootstrapArenaAcquire (krBootstrapArenaAlign arena 16).2 n).1 ∧
      (krBootstrapArenaAcquire (krBootstrapArenaAlign arena 16).2 n).2.pPtr ≤
        arena.pPtr + (n + 30) ∧
      arena.pPtr ≤ (krBootstrapArenaAcquire (krBootstrapArenaAlign arena 16).2 n).2.pPtr ∧
      (krBootstrapArenaAcquire (krBootstrapArenaAlign arena 16).2 n).2.pEnd = arena.pEnd := by
  have halign := krBootstrapArenaAlign_pow arena (k := 4) (by decide)
  norm_num only at halign
  have hsum : wrap64 (arena.pPtr + 15) = arena.pPtr + 15 := wrap64_of_lt (by omega)
  have hsize : wrap64 (n + 15) = n + 15 := wrap64_of_lt (by omega)
  have hgranule : granule n = (n + 15) / 16 * 16 := by rw [granule, hsize]
  rw [hsum, if_neg (by omega)] at halign
  have hmove : wrap64 ((arena.pPtr + 15) / 16 * 16 + granule n) =
      (arena.pPtr + 15) / 16 * 16 + granule n := wrap64_of_lt (by omega)
  rw [halign, krBootstrapArenaAcquire_granule, hmove, if_neg (by dsimp only; omega)]
  dsimp only
  omega

/-- `KrInitMemmap` on a map that is in order. -/
theorem krInitMemmap_canonical {fwMap : Descriptors} (memoryMapSize : Nat) (arena : Arena)
    (hps : 2 ≤ pageSize) (hok : MapOk pageSize fwMap) :
    CanonicalOf pageSize fwMap (buildCanonicalMap pageSize fwMap) ∧
      (fwMap ≠ [] → fwMap.length ≤ 2 ^ 31 → RoomForMaps arena memoryMapSize →
        ∃ s, krInitMemmap fwMap memoryMapSize pageSize arena = some s ∧ s.memoryMap = fwMap ∧
          s.canonicalMemoryMap = buildCanonicalMap pageSize fwMap) := by
  refine ⟨buildCanonicalMap_spec hps hok, fun hne hint hroom => ?_⟩
  have hpos := List.length_pos_iff.mpr hne
  have hsort := krQuicksortMemmap_increasing hne hint (hok.increasing hps)
  have hlimit : wrap32 (sub64 fwMap.length 1) = fwMap.length - 1 := by
    have hlt : fwMap.length < 2 ^ 64 := by omega
    have hlt' : fwMap.length - 1 < 2 ^ 32 := by omega
    rw [sub64_of_le hpos hlt, wrap32_of_lt hlt']
  rw [← hlimit] at hsort
  have hplaced := hroom.placed
  have htop := hroom.bounded
  have hboth := hroom.room
  obtain ⟨hmap, hnext, hptr, hend⟩ :=
    krBootstrapArenaAcquire_aligned arena hroom.size (by omega) htop
  have hcanonical := (krBootstrapArenaAcquire_aligned
    (krBootstrapArenaAcquire (krBootstrapArenaAlign arena 16).2 memoryMapSize).2 hroom.size
    (by omega) (by omega)).1
  have hinit : ∃ pMap pCanonical final, krInitMemmap fwMap memoryMapSize pageSize arena =
      some ⟨fwMap, pMap, buildCanonicalMap pageSize fwMap, pCanonical, final⟩ := by
    rw [krInitMemmap]
    dsimp only
    rw [if_neg (by omega), hsort, Option.bind_some, if_neg fun hnull => by omega]
    exact ⟨_, _, _, rfl⟩
  obtain ⟨_, _, _, hsome⟩ := hinit
  exact ⟨_, hsome, rfl, rfl⟩

def mergedMap : Descriptors :=
  [⟨0, 2, 0, KR_MEMORY_TYPE_CONVENTIONAL_MEMORY, 0⟩, ⟨0x2000, 1, 0, KR_MEMORY_TYPE_LOADER_DATA, 0⟩,
    ⟨0x3000, 1, 0, 0, 0⟩, ⟨0x6000, 4, 0, KR_MEMORY_TYPE_BOOT_SERVICES_CODE, 0⟩]

theorem mapOk_mergedMap : MapOk 4096 mergedMap :=
  ⟨by decide, by simp [mergedMap, regionEnd, base], by decide⟩

theorem krInitMemmap_canonical_merged :
    ∃ s, krInitMemmap mergedMap 160 4096 ⟨0x10000, 0x10000, 0x20000⟩ = some s ∧
      CanonicalOf 4096 mergedMap s.canonicalMemoryMap ∧
      s.canonicalMemoryMap = [⟨0, 3, 0, 7, 0⟩, ⟨0x6000, 4, 0, 7, 0⟩] := by
  obtain ⟨hcanonical, hinit⟩ := krInitMemmap_canonical 160 ⟨0x10000, 0x10000, 0x20000⟩ (by decide)
    mapOk_mergedMap
  obtain ⟨s, hs, _, hmap⟩ := hinit (by simp [mergedMap]) (by decide)
    ⟨by decide, by decide, by decide, by decide⟩
  exact ⟨s, hs, hmap ▸ hcanonical, by rw [hmap]; decide⟩

end Ych.Memmap
