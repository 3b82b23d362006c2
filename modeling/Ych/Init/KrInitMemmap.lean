import Ych.Memory.Physmemmgmt

/-! The copy of the firmware's memory map: sorted in place by base address, then merged into
the canonical map of usable regions. -/
namespace Ych.Memmap
open Words BootstrapArena Physmemmgmt

abbrev Descriptors := List KrMemoryDescriptor

def int32 (n : Nat) : Int := if n % 2 ^ 32 < 2 ^ 31 then n % 2 ^ 32 else n % 2 ^ 32 - 2 ^ 32

/-- `Array[i]`; `none` is an access outside the array. -/
def entryAt (a : Descriptors) (i : Int) : Option KrMemoryDescriptor :=
  if 0 ≤ i then a[i.toNat]? else none

def krSwapMemdescs (a : Descriptors) (lhs rhs : Int) : Option Descriptors :=
  match entryAt a lhs, entryAt a rhs with
  | some l, some r => some ((a.set lhs.toNat r).set rhs.toNat l)
  | _, _ => none

/-- `for (j = Start; j < Limit; j++)`, the counter being `Limit - j`. -/
def krPartDescFrom (pivot limit : Nat) : Nat → Int → Descriptors → Option (Int × Descriptors)
  | 0, i, a => some (i, a)
  | k + 1, i, a =>
    match entryAt a (limit - (k + 1) : Nat) with
    | none => none
    | some d =>
      if d.physicalBase < pivot then
        match krSwapMemdescs a (i + 1) (limit - (k + 1) : Nat) with
        | none => none
        | some a => krPartDescFrom pivot limit k (i + 1) a
      else krPartDescFrom pivot limit k i a

def krPartDescarray (a : Descriptors) (start limit : Nat) : Option (Nat × Descriptors) :=
  match entryAt a limit with
  | none => none
  | some d =>
    match krPartDescFrom d.physicalBase limit (limit - start) (int32 start - 1) a with
    | none => none
    | some (i, a) =>
      match krSwapMemdescs a (i + 1) limit with
      | none => none
      | some a => some (((i + 1) % 2 ^ 32).toNat, a)

/-- The call and the loop around it both go on with a smaller range; `none` where the fuel for
them runs out, or where the array is left. -/
def krQuicksortMemmap : Nat → Descriptors → Nat → Nat → Option Descriptors
  | 0, _, _, _ => none
  | fuel + 1, map, start, limit =>
    if start < limit then
      match krPartDescarray map start limit with
      | none => none
      | some (pi, map) =>
        if sub32 pi start < sub32 limit pi then
          match krQuicksortMemmap fuel map start (sub32 pi 1) with
          | none => none
          | some map => krQuicksortMemmap fuel map (wrap32 (pi + 1)) limit
        else
          match krQuicksortMemmap fuel map (wrap32 (pi + 1)) limit with
          | none => none
          | some map => krQuicksortMemmap fuel map start (sub32 pi 1)
    else some map

/-- The look-ahead over the entries behind the first one of a region: how many of them are
merged into it, and its page count. -/
def peekAhead (pageSize physAddrRegionBase : Nat) : Nat → Descriptors → Nat × Nat
  | canonicalPageCount, [] => (0, canonicalPageCount)
  | canonicalPageCount, d :: ahead =>
    if !krIsUsableMemoryRegionType d.type ||
        wrap64 (physAddrRegionBase + wrap64 (canonicalPageCount * pageSize)) ≠ d.physicalBase then
      (0, canonicalPageCount)
    else
      let r :=
        peekAhead pageSize physAddrRegionBase (wrap64 (canonicalPageCount + d.pageCount)) ahead
      (r.1 + 1, r.2)

def buildCanonicalFrom (pageSize : Nat) : Nat → Descriptors → Descriptors
  | 0, _ => []
  | _ + 1, [] => []
  | fuel + 1, d :: rest =>
    if !krIsUsableMemoryRegionType d.type then buildCanonicalFrom pageSize fuel rest
    else
      let r := peekAhead pageSize d.physicalBase d.pageCount rest
      { physicalBase := d.physicalBase
        pageCount := r.2
        attributes := 0
        type := KR_MEMORY_TYPE_CONVENTIONAL_MEMORY
        pad := 0 } :: buildCanonicalFrom pageSize fuel (rest.drop r.1)

def buildCanonicalMap (pageSize : Nat) (memoryMap : Descriptors) : Descriptors :=
  buildCanonicalFrom pageSize memoryMap.length memoryMap

structure MemmapState where
  memoryMap : Descriptors
  pMemoryMap : Nat
  canonicalMemoryMap : Descriptors
  pCanonicalMemoryMap : Nat
  arena : Arena

/-- `fwMap` is what the boot loader left at `PhysicalAddress`, `EntryCount` its length; `none` is
an access through the arena's NULL, or outside the map. -/
def krInitMemmap (fwMap : Descriptors) (memoryMapSize pageSize : Nat) (arena : Arena) :
    Option MemmapState :=
  let arena := (krBootstrapArenaAlign arena 16).2
  let map := krBootstrapArenaAcquire arena memoryMapSize
  if map.1 = 0 then none
  else
    (krQuicksortMemmap (fwMap.length + 1) fwMap 0 (wrap32 (sub64 fwMap.length 1))).bind
      fun memoryMap =>
        let arena := (krBootstrapArenaAlign map.2 16).2
        let canonical := krBootstrapArenaAcquire arena memoryMapSize
        let canonicalMemoryMap := buildCanonicalMap pageSize memoryMap
        if canonical.1 = 0 ∧ canonicalMemoryMap ≠ [] then none
        else
          some
            { memoryMap
              pMemoryMap := map.1
              canonicalMemoryMap
              pCanonicalMemoryMap := canonical.1
              arena := canonical.2 }

end Ych.Memmap
