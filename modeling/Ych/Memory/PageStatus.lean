import Ych.Base.Words
import Ych.Base.Bitmap

/-! `KrSetPhysicalPageStatus`: an unaligned head, bulk stores of 8, 4, 2 and 1 bytes,
and an unaligned tail, against the plain statement about a range of bits. -/
namespace Ych.PageStatus
open Words Bitmap

/-- Write position of the bulk stores: the bytes so far, `pRegion` as an offset, the
pages left. -/
structure Cursor where
  bytes : Bytes
  pRegion : Nat
  n : Nat

def markHead (status : Bool) : Nat → Byte → Nat → Byte × Nat
  | 0, value, n => (value, n)
  | k + 1, value, n =>
    if n = 0 then (value, n) else markHead status k (markBit value (7 - k) status) (n - 1)

/-- The loop of the unaligned end; it has no check of `BitOffset` against 8. -/
def markTail (status : Bool) : Nat → Nat → Byte → Byte
  | 0, _, value => value
  | n + 1, bitOffset, value => markTail status n (bitOffset + 1) (markBit value bitOffset status)

/-- `while (N >= 8 * width)` with a store of `width` bytes; the fuel is the initial `N`. -/
def bulkWrite (status : Bool) (width : Nat) : Nat → Cursor → Cursor
  | 0, c => c
  | fuel + 1, c =>
    if 8 * width ≤ c.n then
      bulkWrite status width fuel
        { bytes := fill c.bytes c.pRegion width (fillByte status)
          pRegion := c.pRegion + width
          n := c.n - 8 * width }
    else c

def writeHead (status : Bool) (bitmap : Bytes) (idStart n : Nat) : Cursor :=
  if idStart % 8 ≠ 0 then
    let r := markHead status (8 - idStart % 8) (bitmap (idStart / 8)) n
    { bytes := Function.update bitmap (idStart / 8) r.1, pRegion := idStart / 8 + 1, n := r.2 }
  else { bytes := bitmap, pRegion := idStart / 8, n := n }

def writeTail (status : Bool) (c : Cursor) : Bytes :=
  if c.n ≠ 0 then
    Function.update c.bytes c.pRegion (markTail status c.n 0 (c.bytes c.pRegion))
  else c.bytes

def krSetPhysicalPageStatus (nrPages : Nat) (bitmap : Bytes) (idStart n : Nat)
    (status : Bool) : Bool × Bytes :=
  if wrap64 (idStart + n) > nrPages then (false, bitmap)
  else
    let c := writeHead status bitmap idStart n
    let c := bulkWrite status 8 c.n c
    let c := bulkWrite status 4 c.n c
    let c := bulkWrite status 2 c.n c
    let c := bulkWrite status 1 c.n c
    (true, writeTail status c)

theorem markHead_spec (status : Bool) (k : Nat) (value : Byte) (n : Nat) (hk : k ≤ 8) :
    (markHead status k value n).2 = n - k ∧
    ∀ j, j < 8 → (markHead status k value n).1.getLsbD j =
      if 8 - k ≤ j ∧ j < 8 - k + n then status else value.getLsbD j := by
  induction k generalizing value n with
  | zero =>
    refine ⟨rfl, fun j hj => ?_⟩
    rw [if_neg (by omega)]
    rfl
  | succ k ih =>
    unfold markHead
    by_cases hn : n = 0
    · subst hn
      refine ⟨by simp, fun j hj => ?_⟩
      rw [if_pos rfl, if_neg (by omega)]
    · obtain ⟨hrest, hbits⟩ := ih (markBit value (7 - k) status) (n - 1) (by omega)
      rw [if_neg hn]
      refine ⟨by omega, fun j hj => ?_⟩
      rw [hbits j hj, getLsbD_markBit (by omega) hj]
      by_cases h1 : 8 - k ≤ j ∧ j < 8 - k + (n - 1)
      · rw [if_pos h1, if_pos (by omega)]
      · by_cases h2 : j = 7 - k
        · rw [if_neg h1, if_pos h2, if_pos (by omega)]
        · rw [if_neg h1, if_neg h2, if_neg (by omega)]

theorem markTail_spec (status : Bool) (n off : Nat) (value : Byte) (h : off + n ≤ 8) (j : Nat)
    (hj : j < 8) : (markTail status n off value).getLsbD j =
      if off ≤ j ∧ j < off + n then status else value.getLsbD j := by
  induction n generalizing off value with
  | zero => rw [if_neg (by omega)]; rfl
  | succ n ih =>
    rw [markTail, ih (off + 1) _ (by omega), getLsbD_markBit (by omega) hj]
    by_cases h1 : off + 1 ≤ j ∧ j < off + 1 + n
    · rw [if_pos h1, if_pos (by omega)]
    · by_cases h2 : j = off
      · rw [if_neg h1, if_pos h2, if_pos (by omega)]
      · rw [if_neg h1, if_neg h2, if_neg (by omega)]

/-- What every stage keeps: the pages from `s` up to the cursor carry the status, all
other pages are as in `m`, and the cursor and the pages left add up to `e`. -/
structure Written (m : Bytes) (status : Bool) (s e : Nat) (c : Cursor) : Prop where
  reach : 8 * c.pRegion + c.n = e
  past : s ≤ 8 * c.pRegion
  bits : ∀ p, bit c.bytes p = if s ≤ p ∧ p < 8 * c.pRegion then status else bit m p

theorem bulkWrite_written {m : Bytes} {status : Bool} {s e : Nat} (width : Nat) {fuel : Nat}
    {c : Cursor} (hw : 0 < width) (h : Written m status s e c) (hf : c.n ≤ fuel) :
    Written m status s e (bulkWrite status width fuel c) ∧
    (bulkWrite status width fuel c).n < 8 * width := by
  induction fuel generalizing c with
  | zero => exact ⟨h, by simp only [bulkWrite]; omega⟩
  | succ fuel ih =>
    unfold bulkWrite
    by_cases hn : 8 * width ≤ c.n
    · rw [if_pos hn]
      apply ih
      · refine ⟨?_, ?_, fun p => ?_⟩
        · have := h.reach
          dsimp only
          omega
        · have := h.past
          dsimp only
          omega
        · have hpast := h.past
          dsimp only
          rw [bit_fill, h.bits p]
          by_cases h1 : 8 * c.pRegion ≤ p ∧ p < 8 * (c.pRegion + width)
          · rw [if_pos h1, if_pos (by omega)]
          · rw [if_neg h1]
            by_cases h2 : s ≤ p ∧ p < 8 * c.pRegion
            · rw [if_pos h2, if_pos (by omega)]
            · rw [if_neg h2, if_neg (by omega)]
      · dsimp only
        omega
    · rw [if_neg hn]
      exact ⟨h, by omega⟩

theorem bit_writeTail {m : Bytes} {status : Bool} {s e : Nat} {c : Cursor}
    (h : Written m status s e c) (hn : c.n < 8) (p : Nat) :
    bit (writeTail status c) p = if s ≤ p ∧ p < e then status else bit m p := by
  have hreach := h.reach
  have hpast := h.past
  unfold writeTail
  by_cases h0 : c.n = 0
  · rw [if_neg (by simpa using h0), h.bits p]
    have he : 8 * c.pRegion = e := by omega
    rw [he]
  · rw [if_pos h0, bit_update]
    by_cases hp : p / 8 = c.pRegion
    · rw [if_pos hp, markTail_spec _ _ _ _ (by omega) _ (Nat.mod_lt _ (by decide))]
      have hbit : (c.bytes c.pRegion).getLsbD (p % 8) = bit c.bytes p := by rw [← hp]; rfl
      rw [hbit, h.bits p, if_neg (by omega : ¬(s ≤ p ∧ p < 8 * c.pRegion))]
      by_cases h1 : s ≤ p ∧ p < e
      · rw [if_pos h1, if_pos (by omega)]
      · rw [if_neg h1, if_neg (by omega)]
    · rw [if_neg hp, h.bits p]
      by_cases h1 : s ≤ p ∧ p < 8 * c.pRegion
      · rw [if_pos h1, if_pos (by omega)]
      · rw [if_neg h1, if_neg (by omega)]

theorem bit_writeHead (status : Bool) (m : Bytes) (idStart n p : Nat) :
    bit (writeHead status m idStart n).bytes p =
      if idStart ≤ p ∧ p < idStart + n ∧ p < 8 * (writeHead status m idStart n).pRegion then status
      else bit m p := by
  unfold writeHead
  by_cases h0 : idStart % 8 = 0
  · rw [if_neg (by simpa using h0)]
    rw [if_neg (by dsimp only; omega)]
  · rw [if_pos h0]
    have hspec := (markHead_spec status (8 - idStart % 8) (m (idStart / 8)) n (by omega)).2
    dsimp only
    rw [bit_update]
    by_cases hp : p / 8 = idStart / 8
    · rw [if_pos hp, hspec _ (Nat.mod_lt _ (by decide))]
      have hbit : (m (idStart / 8)).getLsbD (p % 8) = bit m p := by rw [← hp]; rfl
      rw [hbit]
      by_cases h1 : idStart ≤ p ∧ p < idStart + n ∧ p < 8 * (idStart / 8 + 1)
      · rw [if_pos h1, if_pos (by omega)]
      · rw [if_neg h1, if_neg (by omega)]
    · rw [if_neg hp, if_neg (by omega)]

theorem writeHead_reach (status : Bool) (m : Bytes) (idStart n : Nat) :
    idStart ≤ 8 * (writeHead status m idStart n).pRegion ∧
    ((writeHead status m idStart n).n = 0 ∧ idStart + n ≤ 8 * (writeHead status m idStart n).pRegion ∨
      8 * (writeHead status m idStart n).pRegion + (writeHead status m idStart n).n = idStart + n) := by
  unfold writeHead
  by_cases h0 : idStart % 8 = 0
  · rw [if_neg (by simpa using h0)]
    dsimp only
    omega
  · rw [if_pos h0]
    have hn := (markHead_spec status (8 - idStart % 8) (m (idStart / 8)) n (by omega)).1
    dsimp only
    omega

theorem bulkWrite_zero (status : Bool) (width : Nat) (c : Cursor) (h : c.n = 0) :
    bulkWrite status width c.n c = c := by
  rw [h]
  rfl

theorem krSetPhysicalPageStatus_spec {nrPages idStart n : Nat} (m : Bytes) (status : Bool)
    (h : idStart + n ≤ nrPages) (hw : idStart + n < 2 ^ 64) :
    (krSetPhysicalPageStatus nrPages m idStart n status).1 = true ∧
    ∀ p, bit (krSetPhysicalPageStatus nrPages m idStart n status).2 p =
      if idStart ≤ p ∧ p < idStart + n then status else bit m p := by
  unfold krSetPhysicalPageStatus
  rw [wrap64_of_lt hw, if_neg (by omega)]
  refine ⟨rfl, fun p => ?_⟩
  obtain ⟨hpast, hend⟩ := writeHead_reach status m idStart n
  have hbits := bit_writeHead status m idStart n
  generalize writeHead status m idStart n = c at hpast hend hbits
  dsimp only
  rcases hend with ⟨hzero, hinside⟩ | hreach
  · -- the whole range lay in the unaligned first byte
    rw [bulkWrite_zero _ _ _ hzero, bulkWrite_zero _ _ _ hzero, bulkWrite_zero _ _ _ hzero,
      bulkWrite_zero _ _ _ hzero, writeTail, if_neg (by simpa using hzero), hbits p]
    by_cases h1 : idStart ≤ p ∧ p < idStart + n
    · rw [if_pos h1, if_pos (by omega)]
    · rw [if_neg h1, if_neg (by omega)]
  · have h0 : Written m status idStart (idStart + n) c := by
      refine ⟨hreach, hpast, fun q => ?_⟩
      rw [hbits q]
      by_cases h1 : idStart ≤ q ∧ q < 8 * c.pRegion
      · rw [if_pos h1, if_pos (by omega)]
      · rw [if_neg h1, if_neg (by omega)]
    have h8 := (bulkWrite_written 8 (by decide) h0 le_rfl).1
    have h4 := (bulkWrite_written 4 (by decide) h8 le_rfl).1
    have h2 := (bulkWrite_written 2 (by decide) h4 le_rfl).1
    obtain ⟨h1, hlt⟩ := bulkWrite_written 1 (by decide) h2 le_rfl
    exact bit_writeTail h1 (by simpa using hlt) p

theorem krSetPhysicalPageStatus_refused {nrPages idStart n : Nat} (m : Bytes) (status : Bool)
    (h : nrPages < wrap64 (idStart + n)) :
    krSetPhysicalPageStatus nrPages m idStart n status = (false, m) := by
  unfold krSetPhysicalPageStatus
  rw [if_pos h]

end Ych.PageStatus
