import Ych.Memory.RnaRun
import Ych.Memory.StaticMapRun

/-! When `VmMapStatic` maps a region as asked: the flag it reads for the page size must agree
with the region's own, no leaf may stand in the way, and every address must be one the
processor knows. -/
namespace Ych.Virtmemmgmt
open Words PageTree Krnlmem PAT Physmemmgmt PTE
open KrVirtualAddressMode KrTypePTE

variable {x y z : PagingState} {v w L e pNode paddrStart : Nat} {mode : KrVirtualAddressMode}

def regionRoot (x : PagingState) (pNode : Nat) : Nat :=
  (x.vmm.addressSpaces (x.vmm.regions pNode).pAddressSpace).paddrRoot

def InRegion (x : PagingState) (pNode v : Nat) : Prop :=
  (x.vmm.regions pNode).vaddrStart ≤ v ∧ v < (x.vmm.regions pNode).vaddrEnd

def prescribed (x : PagingState) (pNode : Nat) : LeafAttributes :=
  leafAttributes (0, (vmEncodeEntryFor x pNode PT_ENTRY 0).1)

/-- A region to map: aligned, with a valid caching value, in an address space whose paging
structures are a tree, and a memory manager with fresh pages. -/
structure StaticInput (x : PagingState) (pNode : Nat) : Prop where
  caching : (x.vmm.regions pNode).flags &&& VMR_FLAG_CACHING_PROTOCOL ≠ 3
  nonempty : (x.vmm.regions pNode).vaddrStart < (x.vmm.regions pNode).vaddrEnd
  fits : (x.vmm.regions pNode).vaddrEnd < 2 ^ 64
  start : regionPageSize (x.vmm.regions pNode).flags ∣ (x.vmm.regions pNode).vaddrStart
  stop : regionPageSize (x.vmm.regions pNode).flags ∣ (x.vmm.regions pNode).vaddrEnd
  root : regionRoot x pNode < 2 ^ 64
  ok : PagingOk x (regionRoot x pNode)

structure RegionMapped (x y : PagingState) (pNode paddrStart : Nat) : Prop where
  inside : ∀ o < (x.vmm.regions pNode).vaddrEnd - (x.vmm.regions pNode).vaddrStart,
    ∃ leaf, translation y.tables (regionRoot x pNode) ((x.vmm.regions pNode).vaddrStart + o) =
        some leaf ∧
      leafPhys leaf ((x.vmm.regions pNode).vaddrStart + o) = paddrStart + o ∧
      leafAttributes leaf = prescribed x pNode
  outside : ∀ v, ¬InRegion x pNode v →
    translation y.tables (regionRoot x pNode) v = translation x.tables (regionRoot x pNode) v

def MapStaticKept (x : PagingState) (pNode paddrStart : Nat) : Prop :=
  ∀ y, vmMapStatic x pNode paddrStart = some (true, y) → RegionMapped x y pNode paddrStart

structure Mappable (x : PagingState) (pNode paddrStart : Nat) : Prop where
  mode : hasFlag (x.vmm.regions pNode).flags VMR_FLAG_PAGE_SIZE =
    hasFlag (x.vmm.regions pNode).flags KR_PAGE_SIZE
  canonical : ∀ v, InRegion x pNode v → Canonical v
  fits : paddrStart + ((x.vmm.regions pNode).vaddrEnd - (x.vmm.regions pNode).vaddrStart) ≤ 2 ^ 52
  noLeaf : ∀ v, InRegion x pNode v → ∀ l e,
    translation x.tables (regionRoot x pNode) v = some (l, e) →
      l = 0 ∨ l = 1 ∧ hasFlag (x.vmm.regions pNode).flags VMR_FLAG_PAGE_SIZE = true

def cachingType (flags : Nat) : Nat :=
  if flags &&& VMR_FLAG_CACHING_PROTOCOL = VMR_CACHE_PROTOCOL_WRITE_BACK then KR_PAT_WRITE_BACK
  else if flags &&& VMR_FLAG_CACHING_PROTOCOL = VMR_CACHE_PROTOCOL_UNCACHEABLE then
    KR_PAT_UNCACHEABLE
  else KR_PAT_WRITE_COMBINING

theorem leafPat_cachingType {flags : Nat} (h : flags &&& VMR_FLAG_CACHING_PROTOCOL ≠ 3) :
    leafPat x flags = some (krSelectPat x.patMsrState (cachingType flags)) := by
  have hle : flags &&& VMR_FLAG_CACHING_PROTOCOL ≤ 3 := Nat.and_le_right
  unfold leafPat cachingType
  dsimp only
  generalize flags &&& VMR_FLAG_CACHING_PROTOCOL = c at *
  obtain rfl | rfl | rfl : c = 0 ∨ c = 1 ∨ c = 2 := by omega
  · rfl
  · rfl
  · rfl

theorem vmEncodeEntryFor_aligned
    (h : (x.vmm.regions pNode).flags &&& VMR_FLAG_CACHING_PROTOCOL ≠ 3) :
    ∃ psl, ∀ {type L base}, LeafType type L → 2 ^ levelShift L ∣ base →
      (vmEncodeEntryFor x pNode type base).1 =
        krMakeFlagsForPTEv2 type (supportedFlags x (leafFlags x pNode)) psl ||| base := by
  refine ⟨krSelectPat x.patMsrState (cachingType (x.vmm.regions pNode).flags),
    fun htype hdvd => ?_⟩
  rw [vmEncodeEntryFor, leafPat_cachingType h]
  dsimp only
  rw [pteEncodeEntry_aligned htype.alignment htype.shift_lt hdvd]

theorem leafAttributes_vmEncodeEntryFor {type : KrTypePTE} {base : Nat}
    (h : (x.vmm.regions pNode).flags &&& VMR_FLAG_CACHING_PROTOCOL ≠ 3) (htype : LeafType type L)
    (hdvd : 2 ^ levelShift L ∣ base) (hbase : base < 2 ^ 52) :
    leafAttributes (L, (vmEncodeEntryFor x pNode type base).1) = prescribed x pNode := by
  obtain ⟨psl, henc⟩ := vmEncodeEntryFor_aligned h
  have hq := (flagsOnly_leafFlags x pNode).supported (x := x)
  rw [prescribed, henc htype hdvd, henc LeafType.small (Nat.dvd_zero _),
    leafAttributes_encode hq.lt htype hdvd hbase,
    leafAttributes_encode hq.lt LeafType.small (Nat.dvd_zero _) (by decide)]

theorem leafPhys_vmEncodeEntryFor {type : KrTypePTE} {base : Nat}
    (h : (x.vmm.regions pNode).flags &&& VMR_FLAG_CACHING_PROTOCOL ≠ 3) (htype : LeafType type L)
    (hdvd : 2 ^ levelShift L ∣ base) (hbase : base < 2 ^ 52) (v : Nat) :
    leafPhys (L, (vmEncodeEntryFor x pNode type base).1) v = base + v % 2 ^ levelShift L := by
  obtain ⟨psl, henc⟩ := vmEncodeEntryFor_aligned h
  rw [henc htype hdvd]
  exact leafPhys_encode (flagsOnly_leafFlags x pNode).supported htype hdvd hbase v

section failure
variable {base q : Nat} {type : KrTypePTE} {psl : KrPatSelect}

theorem vmEncodeEntryFor_invalid
    (h : (x.vmm.regions pNode).flags &&& VMR_FLAG_CACHING_PROTOCOL = 3) :
    (vmEncodeEntryFor x pNode type base).1 = KR_PTE2_ENCODE_FAILURE_DUE_TO_ALIGNMENT := by
  have hnone : leafPat x (x.vmm.regions pNode).flags = none := by
    rw [leafPat, h]
    rfl
  rw [vmEncodeEntryFor, hnone]

theorem encode_ne_failure (hq : q < 2 ^ 64) (haccessed : q.testBit 5 = false) (hdvd : 2 ^ 12 ∣ base) :
    krMakeFlagsForPTEv2 type q psl ||| base ≠ KR_PTE2_ENCODE_FAILURE_DUE_TO_ALIGNMENT := by
  intro heq
  have hbit := testBit_failure (j := 5) (by decide)
  have hpat : isPatBit type 5 = false := by cases type <;> rfl
  rw [← heq, Nat.testBit_or, testBit_krMakeFlagsForPTEv2 hq, haccessed, hpat,
    testBit_of_dvd hdvd (by decide)] at hbit
  simp at hbit

theorem supportedFlags_accessed (h : q.testBit 5 = false) :
    (supportedFlags x q).testBit 5 = false := by
  unfold supportedFlags
  split
  · rw [Nat.testBit_and, h, Bool.false_and]
  · exact h

theorem leafFlags_accessed (x : PagingState) (pNode : Nat) :
    (leafFlags x pNode).testBit 5 = false := by
  unfold leafFlags
  dsimp only
  split_ifs <;> decide

theorem pteEncodeEntry_ne_failure {k : Nat} (hk : krGetPteTypeAlignment type = 2 ^ k)
    (hk64 : k < 64) (h12 : 12 ≤ k) (hdvd : 2 ^ k ∣ base) (hq : q < 2 ^ 64)
    (haccessed : q.testBit 5 = false) (psl : KrPatSelect) :
    (pteEncodeEntry x type base q psl).1 ≠ KR_PTE2_ENCODE_FAILURE_DUE_TO_ALIGNMENT := by
  rw [pteEncodeEntry_aligned hk hk64 hdvd]
  exact encode_ne_failure (supportedFlags_lt hq) (supportedFlags_accessed haccessed)
    ((Nat.pow_dvd_pow 2 h12).trans hdvd)

theorem vmEncodeEntryFor_ne_failure (htype : LeafType type L) :
    (vmEncodeEntryFor x pNode type base).1 ≠ KR_PTE2_ENCODE_FAILURE_DUE_TO_ALIGNMENT ↔
      (x.vmm.regions pNode).flags &&& VMR_FLAG_CACHING_PROTOCOL ≠ 3 ∧ 2 ^ levelShift L ∣ base := by
  constructor
  · intro hne
    refine ⟨fun h => hne (vmEncodeEntryFor_invalid h), ?_⟩
    by_contra hdvd
    refine hne ?_
    rw [vmEncodeEntryFor]
    cases leafPat x (x.vmm.regions pNode).flags with
    | none => rfl
    | some psl => exact pteEncodeEntry_misaligned htype.alignment htype.shift_lt hdvd
  · rintro ⟨hcaching, hdvd⟩
    rw [vmEncodeEntryFor, leafPat_cachingType hcaching]
    exact pteEncodeEntry_ne_failure htype.alignment htype.shift_lt (Nat.le_add_right 12 _) hdvd
      (flagsOnly_leafFlags x pNode).lt (leafFlags_accessed x pNode) _

end failure

theorem vmMapStatic_cases (hin : StaticInput x pNode)
    (hcall : vmMapStatic x pNode paddrStart = some (true, y)) :
    regionPageSize (x.vmm.regions pNode).flags ∣ paddrStart ∧
      mapStaticFrom pNode (krPhysToVirt (regionRoot x pNode))
        (if hasFlag (x.vmm.regions pNode).flags KR_PAGE_SIZE then VADDR_LARGE else VADDR_SMALL)
        paddrStart ((x.vmm.regions pNode).vaddrEnd - (x.vmm.regions pNode).vaddrStart) (2 ^ 64) 0 x =
        some (true, y) := by
  have hpow : IsPowerOfTwo (regionPageSize (x.vmm.regions pNode).flags) ∧
      regionPageSize (x.vmm.regions pNode).flags < 2 ^ 32 := by
    unfold regionPageSize
    split
    · exact ⟨⟨21, rfl⟩, by decide⟩
    · exact ⟨⟨12, rfl⟩, by decide⟩
  unfold vmMapStatic at hcall
  dsimp only at hcall
  split at hcall
  · exact absurd hcall (by simp)
  · rename_i hcheck
    split at hcall
    · exact absurd hcall (by simp)
    · rw [sub64_of_le hin.nonempty.le hin.fits] at hcall
      simp only [Bool.not_eq_true', Bool.and_eq_true, Bool.not_eq_false] at hcheck
      exact ⟨(krtlIsPowerOfTwoAligned_iff hpow.1 hpow.2).mp hcheck.2, hcall⟩

/-- The mode chosen for the region. -/
def chosenMode (flags : Nat) : KrVirtualAddressMode :=
  if hasFlag flags KR_PAGE_SIZE then VADDR_LARGE else VADDR_SMALL

theorem chosenMode_or (flags : Nat) :
    chosenMode flags = VADDR_SMALL ∨ chosenMode flags = VADDR_LARGE := by
  unfold chosenMode
  split
  · exact Or.inr rfl
  · exact Or.inl rfl

theorem leafType_of_mode (hmode : mode = VADDR_SMALL ∨ mode = VADDR_LARGE) :
    LeafType (modeType mode) (modeLevel mode) := by
  rcases hmode with rfl | rfl
  · exact LeafType.small
  · exact LeafType.large

theorem mapped_of_call (hin : StaticInput x pNode)
    (hcan : ∀ v, InRegion x pNode v → Canonical v)
    (hnone : ∀ v, InRegion x pNode v → ∀ l e,
      translation x.tables (regionRoot x pNode) v = some (l, e) →
        l ≤ modeLevel (chosenMode (x.vmm.regions pNode).flags))
    (hcall : vmMapStatic x pNode paddrStart = some (true, y)) :
    Mapped x y (regionRoot x pNode) (x.vmm.regions pNode).vaddrStart
      (regionPageSize (x.vmm.regions pNode).flags)
      ((x.vmm.regions pNode).vaddrEnd - (x.vmm.regions pNode).vaddrStart)
      (modeLevel (chosenMode (x.vmm.regions pNode).flags)) 0
      (leafAt x pNode (chosenMode (x.vmm.regions pNode).flags) paddrStart) := by
  have hnonempty := hin.nonempty
  have hfits := hin.fits
  have hinside : ∀ o, Ahead (regionPageSize (x.vmm.regions pNode).flags)
      ((x.vmm.regions pNode).vaddrEnd - (x.vmm.regions pNode).vaddrStart) 0 o →
      InRegion x pNode ((x.vmm.regions pNode).vaddrStart + o) := by
    rintro o ⟨_, hlt, _⟩
    exact ⟨Nat.le_add_right _ _, by omega⟩
  exact mapStaticFrom_spec hin.root (chosenMode_or _) rfl rfl (by omega)
    (Nat.dvd_sub hin.stop hin.start) (Nat.dvd_zero _) (fun o ho => hcan _ (hinside o ho)) hin.ok
    (fun o ho => hnone _ (hinside o ho)) (vmMapStatic_cases hin hcall).2

/-- The step of the loop is the block of the mode when the two flags agree. -/
theorem Mappable.step (hm : Mappable x pNode paddrStart) :
    regionPageSize (x.vmm.regions pNode).flags =
      2 ^ levelShift (modeLevel (chosenMode (x.vmm.regions pNode).flags)) := by
  have hmode := hm.mode
  unfold regionPageSize chosenMode
  cases hflag : hasFlag (x.vmm.regions pNode).flags KR_PAGE_SIZE with
  | true =>
    rw [hflag] at hmode
    rw [hmode]
    rfl
  | false =>
    rw [hflag] at hmode
    rw [hmode]
    rfl

theorem Mappable.level (hm : Mappable x pNode paddrStart) (hv : InRegion x pNode v)
    (htr : translation x.tables (regionRoot x pNode) v = some (L, e)) :
    L ≤ modeLevel (chosenMode (x.vmm.regions pNode).flags) := by
  rcases hm.noLeaf v hv L e htr with rfl | ⟨rfl, hflag⟩
  · exact Nat.zero_le _
  · rw [chosenMode, ← hm.mode, hflag]
    decide

theorem Mappable.kept (hin : StaticInput x pNode) (hm : Mappable x pNode paddrStart) :
    MapStaticKept x pNode paddrStart := by
  intro y hcall
  have hmapped := mapped_of_call hin hm.canonical (fun v hv l e => hm.level hv) hcall
  have hdvd := (vmMapStatic_cases hin hcall).1
  have htype := leafType_of_mode (chosenMode_or (x.vmm.regions pNode).flags)
  have hstart := hin.start
  have hstop := hin.stop
  have hfits := hm.fits
  have hlt := hin.nonempty
  have hcan := hm.canonical
  have hpos := Nat.two_pow_pos (levelShift (modeLevel (chosenMode (x.vmm.regions pNode).flags)))
  rw [hm.step] at hmapped hdvd hstart hstop
  unfold InRegion at hcan
  generalize hs : (x.vmm.regions pNode).vaddrStart = start at *
  generalize he : (x.vmm.regions pNode).vaddrEnd = stop at *
  generalize modeLevel (chosenMode (x.vmm.regions pNode).flags) = L at *
  -- rounds stand at multiples of the block, which lie in different blocks
  have hblock : ∀ o, 2 ^ levelShift L ∣ o →
      (start + o) / 2 ^ levelShift L * 2 ^ levelShift L = start + o := fun o ho =>
    Nat.div_mul_cancel (Nat.dvd_add hstart ho)
  refine ⟨fun o ho => ?_, fun v hv => ?_⟩
  · rw [hs, he] at ho
    have hk : 2 ^ levelShift L ∣ o / 2 ^ levelShift L * 2 ^ levelShift L := Nat.dvd_mul_left _ _
    have hsum := Nat.div_add_mod o (2 ^ levelShift L)
    have hmod := Nat.mod_lt o hpos
    rw [Nat.mul_comm] at hsum
    generalize o / 2 ^ levelShift L * 2 ^ levelShift L = k at hk hsum
    have hahead : Ahead (2 ^ levelShift L) (stop - start) 0 k := ⟨Nat.zero_le _, by omega, hk⟩
    have hpage : start + o = start + k + o % 2 ^ levelShift L := by omega
    have hdiv : (start + o) / 2 ^ levelShift L = (start + k) / 2 ^ levelShift L := by
      obtain ⟨c, hc⟩ := Nat.dvd_add hstart hk
      rw [hpage, hc, Nat.mul_add_div hpos, Nat.mul_div_cancel_left c hpos, Nat.div_eq_of_lt hmod,
        Nat.add_zero]
    have hrest : (start + o) % 2 ^ levelShift L = o % 2 ^ levelShift L := by
      rw [hpage, Nat.add_mod, Nat.mod_eq_zero_of_dvd (Nat.dvd_add hstart hk), Nat.zero_add,
        Nat.mod_mod, Nat.mod_mod]
    have hleaf := hmapped.leaf k (start + o) hahead (fun o' ho' hgt heq => by
      have h1 := hblock o' ho'.2.2
      have h2 := hblock k hk
      rw [heq, h2] at h1
      omega) (hcan _ ⟨by omega, by omega⟩) hdiv
    have hbase : wrap64 (paddrStart + k) = paddrStart + k := wrap64_of_lt (by omega)
    have hphys := leafPhys_vmEncodeEntryFor hin.caching htype (Nat.dvd_add hdvd hk)
      (by omega) (start + o)
    have hattr := leafAttributes_vmEncodeEntryFor hin.caching htype (Nat.dvd_add hdvd hk)
      (by omega)
    rw [hs]
    refine ⟨_, hleaf, ?_, ?_⟩
    · rw [leafAt, hbase, hphys, hrest]
      omega
    · rw [leafAt, hbase, hattr]
  · refine hmapped.other v fun o hahead heq => hv ?_
    have hb := hblock o hahead.2.2
    have hnext := add_step_le (Nat.dvd_sub hstop hstart) hahead.2.2 hahead.2.1
    have hlow := Nat.div_mul_le_self v (2 ^ levelShift L)
    have hhigh := Nat.lt_div_mul_add hpos (a := v)
    rw [heq] at hb
    rw [InRegion, hs, he]
    omega

theorem prescribed_ne_failure
    (h : (x.vmm.regions pNode).flags &&& VMR_FLAG_CACHING_PROTOCOL ≠ 3) :
    leafAttributes (1, KR_PTE2_ENCODE_FAILURE_DUE_TO_ALIGNMENT) ≠ prescribed x pNode := by
  obtain ⟨psl, henc⟩ := vmEncodeEntryFor_aligned h
  have hq := (flagsOnly_leafFlags x pNode).supported (x := x)
  rw [prescribed, henc LeafType.small (Nat.dvd_zero _),
    leafAttributes_encode hq.lt LeafType.small (Nat.dvd_zero _) (by decide)]
  intro heq
  have huser := congrArg LeafAttributes.user heq
  have hglobal := congrArg LeafAttributes.globalPage heq
  have hboth : ¬((leafFlags x pNode).testBit 2 = true ∧ (leafFlags x pNode).testBit 8 = true) := by
    unfold leafFlags
    dsimp only
    split_ifs <;> decide
  have hkept : ∀ j, (supportedFlags x (leafFlags x pNode)).testBit j = true →
      (leafFlags x pNode).testBit j = true := by
    intro j hj
    unfold supportedFlags at hj
    split at hj
    · rw [Nat.testBit_and, Bool.and_eq_true] at hj
      exact hj.1
    · exact hj
  exact hboth ⟨hkept 2 (huser.symm.trans (testBit_failure (j := 2) (by decide))),
    hkept 8 (hglobal.symm.trans (testBit_failure (j := 8) (by decide)))⟩

theorem RegionMapped.at (hr : RegionMapped x y pNode paddrStart) (hv : InRegion x pNode v) :
    ∃ leaf, translation y.tables (regionRoot x pNode) v = some leaf ∧
      leafPhys leaf v = paddrStart + (v - (x.vmm.regions pNode).vaddrStart) ∧
      leafAttributes leaf = prescribed x pNode := by
  obtain ⟨h1, h2⟩ := hv
  have h := hr.inside (v - (x.vmm.regions pNode).vaddrStart) (by omega)
  rw [Nat.add_sub_cancel' h1] at h
  exact h

theorem RegionMapped.mapped (hr : RegionMapped x y pNode paddrStart) (hin : StaticInput x pNode)
    (hcall : vmMapStatic x pNode paddrStart = some (true, y))
    (hfree : ∀ v, InRegion x pNode v → translation x.tables (regionRoot x pNode) v = none) :
    Mapped x y (regionRoot x pNode) (x.vmm.regions pNode).vaddrStart
      (regionPageSize (x.vmm.regions pNode).flags)
      ((x.vmm.regions pNode).vaddrEnd - (x.vmm.regions pNode).vaddrStart)
      (modeLevel (chosenMode (x.vmm.regions pNode).flags)) 0
      (leafAt x pNode (chosenMode (x.vmm.regions pNode).flags) paddrStart) := by
  refine mapped_of_call hin (fun v hv => ?_) (fun v hv l e h => ?_) hcall
  · obtain ⟨leaf, htr, _⟩ := hr.at hv
    exact canonical_of_translation htr
  · rw [hfree v hv] at h
    exact absurd h (by simp)

theorem aligned_of_prescribed {base : Nat}
    (hcaching : (x.vmm.regions pNode).flags &&& VMR_FLAG_CACHING_PROTOCOL ≠ 3)
    (hattr : leafAttributes (1, (vmEncodeEntryFor x pNode PD2MB_ENTRY base).1) =
      prescribed x pNode) : 2 ^ levelShift 1 ∣ base := by
  by_contra hdvd
  have hfail : (vmEncodeEntryFor x pNode PD2MB_ENTRY base).1 =
      KR_PTE2_ENCODE_FAILURE_DUE_TO_ALIGNMENT := by
    rw [vmEncodeEntryFor, leafPat_cachingType hcaching]
    exact pteEncodeEntry_misaligned LeafType.large.alignment LeafType.large.shift_lt hdvd
  rw [hfail] at hattr
  exact prescribed_ne_failure hcaching hattr

/-- Steps of 2 MiB with 4 KiB leaves leave the second page of the region unmapped. -/
theorem not_kept_of_large_step (hin : StaticInput x pNode)
    (hcall : vmMapStatic x pNode paddrStart = some (true, y))
    (hfree : ∀ v, InRegion x pNode v → translation x.tables (regionRoot x pNode) v = none)
    (hsize : hasFlag (x.vmm.regions pNode).flags VMR_FLAG_PAGE_SIZE = true)
    (hbit : hasFlag (x.vmm.regions pNode).flags KR_PAGE_SIZE = false)
    (hr : RegionMapped x y pNode paddrStart) : False := by
  have hstep : regionPageSize (x.vmm.regions pNode).flags = 2 ^ 21 := if_pos hsize
  have hmode : modeLevel (chosenMode (x.vmm.regions pNode).flags) = 0 := by
    rw [chosenMode, hbit]
    rfl
  have hmapped := hr.mapped hin hcall hfree
  have hstart := hin.start
  have hstop := hin.stop
  have hlt := hin.nonempty
  rw [hstep] at hmapped hstart hstop
  rw [hmode] at hmapped
  have hsecond : InRegion x pNode ((x.vmm.regions pNode).vaddrStart + 4096) := by
    unfold InRegion
    omega
  have hnone := hmapped.other ((x.vmm.regions pNode).vaddrStart + 4096) (fun o ho => by
    obtain ⟨_, _, hdvd⟩ := ho
    unfold levelShift
    omega)
  obtain ⟨leaf, htr, _⟩ := hr.at hsecond
  rw [hnone, hfree _ hsecond] at htr
  exact absurd htr (by simp)

/-- Steps of 4 KiB with 2 MiB leaves map more than the last page of the region. -/
theorem not_kept_of_large_leaf (hin : StaticInput x pNode)
    (hcall : vmMapStatic x pNode paddrStart = some (true, y))
    (hfree : ∀ v, InRegion x pNode v → translation x.tables (regionRoot x pNode) v = none)
    (hfits : paddrStart + ((x.vmm.regions pNode).vaddrEnd - (x.vmm.regions pNode).vaddrStart) ≤
      2 ^ 52)
    (hsize : hasFlag (x.vmm.regions pNode).flags VMR_FLAG_PAGE_SIZE = false)
    (hbit : hasFlag (x.vmm.regions pNode).flags KR_PAGE_SIZE = true)
    (hr : RegionMapped x y pNode paddrStart) : False := by
  have hstep : regionPageSize (x.vmm.regions pNode).flags = 2 ^ 12 := by
    rw [regionPageSize, hsize]
    rfl
  have hchosen : chosenMode (x.vmm.regions pNode).flags = VADDR_LARGE := if_pos hbit
  have hmapped := hr.mapped hin hcall hfree
  have hstart := hin.start
  have hstop := hin.stop
  have hlt := hin.nonempty
  have htop := hin.fits
  rw [hstep] at hmapped hstart hstop
  rw [hchosen] at hmapped
  have hlevel : modeLevel VADDR_LARGE = 1 := rfl
  rw [hlevel] at hmapped
  -- the last round writes the leaf of the last page
  obtain ⟨last, hlast⟩ : ∃ last, last + 4096 = (x.vmm.regions pNode).vaddrEnd :=
    ⟨_, Nat.sub_add_cancel (by omega)⟩
  obtain ⟨o, ho⟩ : ∃ o, (x.vmm.regions pNode).vaddrStart + o = last :=
    ⟨_, Nat.add_sub_cancel' (by omega)⟩
  have hahead : Ahead (2 ^ 12)
      ((x.vmm.regions pNode).vaddrEnd - (x.vmm.regions pNode).vaddrStart) 0 o :=
    ⟨Nat.zero_le _, by omega, by omega⟩
  have hlastIn : InRegion x pNode last := ⟨by omega, by omega⟩
  obtain ⟨leaf, htr, hphys, hattr⟩ := hr.at hlastIn
  have hcan := canonical_of_translation htr
  have hwrite := hmapped.leaf o last hahead (fun o' h' hgt => by
    obtain ⟨_, h2, h3⟩ := h'
    omega) hcan (by rw [ho])
  rw [hwrite, Option.some.injEq] at htr
  subst htr
  have hbase : wrap64 (paddrStart + o) = paddrStart + o := wrap64_of_lt (by omega)
  have htype : modeType VADDR_LARGE = PD2MB_ENTRY := rfl
  rw [leafAt, hbase, htype] at hphys hattr
  -- the base is aligned, so the address must be too, and the next page is in the same block
  have hdvd := aligned_of_prescribed hin.caching hattr
  rw [leafPhys_vmEncodeEntryFor hin.caching LeafType.large hdvd (by omega)] at hphys
  have hnext : ¬InRegion x pNode (last + 4096) := fun h => by
    have := h.2
    omega
  have h21 : levelShift 1 = 21 := rfl
  have hblock : (last + 4096) / 2 ^ levelShift 1 = last / 2 ^ levelShift 1 := by
    rw [h21] at hphys hdvd ⊢
    omega
  have hcan' : Canonical (last + 4096) := by
    unfold Canonical at hcan ⊢
    rw [h21] at hblock
    omega
  have hoverlap := hmapped.leaf o (last + 4096) hahead (fun o' h' hgt => by
    obtain ⟨_, h2, h3⟩ := h'
    omega) hcan' (by rw [hblock, ho])
  rw [hr.outside _ hnext] at hoverlap
  have hbefore := translation_block hcan (by decide) hblock.symm hoverlap le_rfl
  rw [hfree last hlastIn] at hbefore
  exact absurd hbefore (by simp)

theorem Mappable.of_kept (hin : StaticInput x pNode)
    (hcall : vmMapStatic x pNode paddrStart = some (true, y))
    (hfree : ∀ v, InRegion x pNode v → translation x.tables (regionRoot x pNode) v = none)
    (hkept : MapStaticKept x pNode paddrStart) : Mappable x pNode paddrStart := by
  have hr := hkept y hcall
  have hnonempty := hin.nonempty
  have hfits : paddrStart +
      ((x.vmm.regions pNode).vaddrEnd - (x.vmm.regions pNode).vaddrStart) ≤ 2 ^ 52 := by
    have hend : InRegion x pNode ((x.vmm.regions pNode).vaddrEnd - 1) := ⟨by omega, by omega⟩
    obtain ⟨leaf, htr, hphys, _⟩ := hr.at hend
    have hlt := leafPhys_lt htr
    omega
  refine ⟨?_, fun v hv => canonical_of_translation (hr.at hv).choose_spec.1, hfits,
    fun v hv l e h => ?_⟩
  · cases hsize : hasFlag (x.vmm.regions pNode).flags VMR_FLAG_PAGE_SIZE with
    | true =>
      cases hbit : hasFlag (x.vmm.regions pNode).flags KR_PAGE_SIZE with
      | true => rfl
      | false => exact (not_kept_of_large_step hin hcall hfree hsize hbit hr).elim
    | false =>
      cases hbit : hasFlag (x.vmm.regions pNode).flags KR_PAGE_SIZE with
      | true => exact (not_kept_of_large_leaf hin hcall hfree hfits hsize hbit hr).elim
      | false => rfl
  · rw [hfree v hv] at h
    exact absurd h (by simp)

/-- When a static region is mapped as asked. -/
theorem vmMapStatic_kept (paddrStart : Nat) (hin : StaticInput x pNode) :
    (Mappable x pNode paddrStart → MapStaticKept x pNode paddrStart) ∧
      ∀ y, vmMapStatic x pNode paddrStart = some (true, y) →
        (∀ v, InRegion x pNode v → translation x.tables (regionRoot x pNode) v = none) →
          (MapStaticKept x pNode paddrStart ↔ Mappable x pNode paddrStart) :=
  ⟨fun hm => hm.kept hin, fun _ hcall hfree =>
    ⟨fun hkept => Mappable.of_kept hin hcall hfree hkept, fun hm => hm.kept hin⟩⟩

theorem pagingOk_of_zero {root : Nat} (hs : WellSized x.vmm.pmm) (ht : TailSet x.vmm.pmm)
    (hnr : x.vmm.pmm.nrPages ≤ 2 ^ 20) (hzero : ∀ i, x.tables root i = 0)
    (hroot : ∀ n < x.vmm.pmm.nrPages, pageFree x.vmm.pmm n = true → n * 4096 ≠ root) :
    PagingOk x root := by
  have hempty : ∀ p t, descend slot x.tables 4 root p = some t → p = [] ∧ t = root := by
    intro p t h
    cases p with
    | nil =>
      rw [descend_nil, Option.some.injEq] at h
      exact ⟨rfl, h.symm⟩
    | cons i p =>
      rw [descend, hzero, slot_zero] at h
      exact absurd h (by simp)
  have haddr : ∀ n < x.vmm.pmm.nrPages, krGetPhysicalPageAddress x.vmm.pmm n = n * 4096 := by
    intro n hn
    have hvalid : krIsValidPageID x.vmm.pmm n = true := by
      unfold krIsValidPageID IVLDPGID
      simp only [Bool.and_eq_true, decide_eq_true_eq]
      omega
    rw [krGetPhysicalPageAddress, hvalid, if_neg (by decide), KR_PAGE_SIZE, wrap32_of_lt (by omega)]
  refine ⟨fun p q t hp hq => ?_, hs, ht, fun n hn hfree p h => ?_, fun n hn m hm _ _ h => ?_⟩
  · rw [(hempty p t hp).1, (hempty q t hq).1]
  · rw [haddr n hn] at h
    exact hroot n hn hfree (hempty p _ h).2
  · rw [haddr n hn, haddr m hm] at h
    omega

theorem descend_of_zero {f : Tables (Fin 512)} {root d : Nat} (hzero : ∀ i, f root i = 0)
    {q : List (Fin 512)} (hq : q ≠ []) : descend slot f d root q = none := by
  cases q with
  | nil => exact absurd rfl hq
  | cons i q =>
    cases d with
    | zero => exact descend_zero root i
    | succ d => rw [descend, hzero, slot_zero]

theorem translation_of_zero {f : Tables (Fin 512)} {root : Nat} (hzero : ∀ i, f root i = 0) (v : Nat) :
    translation f root v = none := by
  unfold translation
  split
  · rw [path, walk, hzero, slot_zero]
  · rfl

def oneRegion (flags vaddrStart vaddrEnd : Nat) : PagingState where
  vmm := { smallVmm with
    regions := fun _ => ⟨1, 0, 0, none, vaddrStart, vaddrEnd, flags⟩
    addressSpaces := fun i => if i = 1 then ⟨0x2000, 0, 0, 0⟩ else ⟨0x1000, 0, 0, 0⟩
    kernelAddressSpace := 2 }
  tables := fun _ _ => 0
  bInitialized := true
  bNoExecuteSupport := true
  patMsrState := patMsrSetup
  g_pslDefault := ⟨false, false, false⟩
  numIvldEncodeOfPTEs := 0

theorem pagingOk_oneRegion (flags vaddrStart vaddrEnd : Nat) :
    PagingOk (oneRegion flags vaddrStart vaddrEnd) 0x2000 := by
  refine pagingOk_of_zero smallVmm_sized smallVmm_tailSet ?_ (fun _ => rfl) ?_
  · show smallVmm.pmm.nrPages ≤ 2 ^ 20
    decide +kernel
  · show ∀ n < smallVmm.pmm.nrPages, pageFree smallVmm.pmm n = true → n * 4096 ≠ 0x2000
    decide +kernel

def acrossTables : PagingState := oneRegion VMR_FLAG_STATIC 0x3FD000 0x402000

def onePage : PagingState := oneRegion (VMR_FLAG_STATIC ||| VMR_FLAG_PAGE_SIZE) 0x200000 0x400000

theorem staticInput_acrossTables : StaticInput acrossTables 1 :=
  ⟨by decide, by decide, by decide, by decide, by decide, by decide, pagingOk_oneRegion _ _ _⟩

theorem staticInput_onePage : StaticInput onePage 1 :=
  ⟨by decide, by decide, by decide, by decide, by decide, by decide, pagingOk_oneRegion _ _ _⟩

theorem success_of_fst {r : Option (Bool × PagingState)} (h : r.map Prod.fst = some true) :
    ∃ y, r = some (true, y) := by
  rcases r with _ | ⟨_, y⟩
  · exact absurd h (by simp)
  · simp only [Option.map_some, Option.some.injEq] at h
    exact ⟨y, by rw [h]⟩

theorem vmMapStatic_kept_acrossTables :
    ∃ y, vmMapStatic acrossTables 1 0x5000 = some (true, y) ∧
      RegionMapped acrossTables y 1 0x5000 := by
  obtain ⟨y, hcall⟩ := success_of_fst (r := vmMapStatic acrossTables 1 0x5000) (by decide +kernel)
  have hkept := (vmMapStatic_kept 0x5000 staticInput_acrossTables).1
    ⟨by decide, fun v hv => Or.inl (hv.2.trans (by decide)), by decide, fun v _ l e h => by
      rw [translation_of_zero fun _ => rfl] at h
      exact absurd h (by simp)⟩
  exact ⟨y, hcall, hkept y hcall⟩

/-- Only the first 4 KiB of a 2 MiB page are mapped. -/
theorem large_region_mapped_small : ∃ y, vmMapStatic onePage 1 0 = some (true, y) ∧
    StaticInput onePage 1 ∧ ¬RegionMapped onePage y 1 0 := by
  obtain ⟨y, hcall⟩ := success_of_fst (r := vmMapStatic onePage 1 0) (by decide +kernel)
  exact ⟨y, hcall, staticInput_onePage, not_kept_of_large_step staticInput_onePage hcall
    (fun _ _ => translation_of_zero (fun _ => rfl) _) (by decide) (by decide)⟩

end Ych.Virtmemmgmt
