import Ych.Memory.PageStatus

/-! The stores of `KrSetPhysicalPageStatus`, of one, two, four or eight bytes each: in turn they
are what the function does to memory, and none goes outside the bitmap. -/
namespace Ych.PageStatus
open Words Bitmap

variable {m : Bytes} {status : Bool} {s e nrPages idStart n : Nat} {c : Cursor}

/-- One store: the offset into memory, its width in bytes and the value of each of them. -/
structure Store where
  offset : Nat
  width : Nat
  value : Byte

def Store.apply (m : Bytes) (w : Store) : Bytes := fill m w.offset w.width w.value

def Store.Within (bound : Nat) (w : Store) : Prop := w.offset + w.width ≤ bound

def headStores (status : Bool) (bitmap : Bytes) (idStart n : Nat) : List Store :=
  if idStart % 8 ≠ 0 then
    [{ offset := idStart / 8
       width := 1
       value := (markHead status (8 - idStart % 8) (bitmap (idStart / 8)) n).1 }]
  else []

def bulkStores (status : Bool) (width : Nat) : Nat → Cursor → List Store
  | 0, _ => []
  | fuel + 1, c =>
    if 8 * width ≤ c.n then
      { offset := c.pRegion, width := width, value := fillByte status } ::
        bulkStores status width fuel
          { bytes := fill c.bytes c.pRegion width (fillByte status)
            pRegion := c.pRegion + width
            n := c.n - 8 * width }
    else []

def tailStores (status : Bool) (c : Cursor) : List Store :=
  if c.n ≠ 0 then
    [{ offset := c.pRegion, width := 1, value := markTail status c.n 0 (c.bytes c.pRegion) }]
  else []

def setStores (nrPages : Nat) (bitmap : Bytes) (idStart n : Nat) (status : Bool) : List Store :=
  if wrap64 (idStart + n) > nrPages then []
  else
    let c0 := writeHead status bitmap idStart n
    let c8 := bulkWrite status 8 c0.n c0
    let c4 := bulkWrite status 4 c8.n c8
    let c2 := bulkWrite status 2 c4.n c4
    let c1 := bulkWrite status 1 c2.n c2
    headStores status bitmap idStart n ++ bulkStores status 8 c0.n c0 ++
      bulkStores status 4 c8.n c8 ++ bulkStores status 2 c4.n c4 ++
      bulkStores status 1 c2.n c2 ++ tailStores status c1

theorem fill_one (m : Bytes) (off : Nat) (b : Byte) : fill m off 1 b = Function.update m off b := by
  funext i
  by_cases h : i = off
  · subst h
    simp [fill]
  · rw [fill, if_neg (by omega), Function.update_of_ne h]

/-! ### In turn they are what the function writes -/

theorem headStores_replay :
    (headStores status m idStart n).foldl Store.apply m = (writeHead status m idStart n).bytes := by
  rw [headStores, writeHead]
  by_cases h : idStart % 8 ≠ 0
  · rw [if_pos h, if_pos h]
    exact fill_one _ _ _
  · rw [if_neg h, if_neg h]
    rfl

theorem bulkStores_replay {width fuel : Nat} :
    (bulkStores status width fuel c).foldl Store.apply c.bytes =
      (bulkWrite status width fuel c).bytes := by
  induction fuel generalizing c with
  | zero => rfl
  | succ fuel ih =>
    rw [bulkStores, bulkWrite]
    by_cases h : 8 * width ≤ c.n
    · rw [if_pos h, if_pos h, List.foldl_cons, ← ih]
      rfl
    · rw [if_neg h, if_neg h]
      rfl

theorem tailStores_replay :
    (tailStores status c).foldl Store.apply c.bytes = writeTail status c := by
  rw [tailStores, writeTail]
  by_cases h : c.n ≠ 0
  · rw [if_pos h, if_pos h]
    exact fill_one _ _ _
  · rw [if_neg h, if_neg h]
    rfl

theorem setStores_replay (nrPages : Nat) (m : Bytes) (idStart n : Nat) (status : Bool) :
    (setStores nrPages m idStart n status).foldl Store.apply m =
      (krSetPhysicalPageStatus nrPages m idStart n status).2 := by
  rw [setStores, krSetPhysicalPageStatus]
  by_cases h : wrap64 (idStart + n) > nrPages
  · rw [if_pos h, if_pos h]
    rfl
  · rw [if_neg h, if_neg h]
    simp only [List.foldl_append, headStores_replay, bulkStores_replay, tailStores_replay]

/-! ### None goes outside the bitmap -/

theorem headStores_within (h : idStart + n ≤ nrPages) :
    ∀ w ∈ headStores status m idStart n, w.Within ((nrPages + 7) / 8) := by
  rw [headStores]
  by_cases hoff : idStart % 8 ≠ 0
  · rw [if_pos hoff]
    simp only [List.mem_singleton, forall_eq, Store.Within]
    omega
  · rw [if_neg hoff]
    simp

theorem bulkStores_within {width fuel bound : Nat} (h : 8 * c.pRegion + c.n ≤ 8 * bound) :
    ∀ w ∈ bulkStores status width fuel c, w.Within bound := by
  induction fuel generalizing c with
  | zero => simp [bulkStores]
  | succ fuel ih =>
    rw [bulkStores]
    by_cases hn : 8 * width ≤ c.n
    · rw [if_pos hn, List.forall_mem_cons]
      constructor
      · simp only [Store.Within]
        omega
      · apply ih
        dsimp only
        omega
    · rw [if_neg hn]
      simp

theorem tailStores_within {bound : Nat} (h : 8 * c.pRegion + c.n ≤ 8 * bound) :
    ∀ w ∈ tailStores status c, w.Within bound := by
  rw [tailStores]
  by_cases hn : c.n ≠ 0
  · rw [if_pos hn]
    simp only [List.mem_singleton, forall_eq, Store.Within]
    omega
  · rw [if_neg hn]
    simp

theorem bulkWrite_end (width fuel : Nat) (c : Cursor) :
    8 * (bulkWrite status width fuel c).pRegion + (bulkWrite status width fuel c).n =
      8 * c.pRegion + c.n := by
  induction fuel generalizing c with
  | zero => rfl
  | succ fuel ih =>
    rw [bulkWrite]
    by_cases hn : 8 * width ≤ c.n
    · rw [if_pos hn, ih]
      dsimp only
      omega
    · rw [if_neg hn]

theorem writeHead_end (h : idStart + n ≤ nrPages) :
    8 * (writeHead status m idStart n).pRegion + (writeHead status m idStart n).n ≤
      8 * ((nrPages + 7) / 8) := by
  rw [writeHead]
  by_cases hoff : idStart % 8 ≠ 0
  · rw [if_pos hoff]
    have hleft := (markHead_spec status (8 - idStart % 8) (m (idStart / 8)) n (by omega)).1
    dsimp only
    omega
  · rw [if_neg hoff]
    dsimp only
    omega

theorem setStores_within (m : Bytes) (status : Bool) (h : idStart + n ≤ nrPages) :
    ∀ w ∈ setStores nrPages m idStart n status, w.Within ((nrPages + 7) / 8) := by
  rw [setStores]
  by_cases hrefused : wrap64 (idStart + n) > nrPages
  · rw [if_pos hrefused]
    simp
  · have hend : 8 * (writeHead status m idStart n).pRegion + (writeHead status m idStart n).n ≤
        8 * ((nrPages + 7) / 8) := writeHead_end h
    rw [if_neg hrefused]
    simp only [List.forall_mem_append]
    -- every cursor of the bulk stores has the same end
    refine ⟨⟨⟨⟨⟨headStores_within h, bulkStores_within hend⟩, ?_⟩, ?_⟩, ?_⟩, ?_⟩
    · apply bulkStores_within
      simpa only [bulkWrite_end] using hend
    · apply bulkStores_within
      simpa only [bulkWrite_end] using hend
    · apply bulkStores_within
      simpa only [bulkWrite_end] using hend
    · apply tailStores_within
      simpa only [bulkWrite_end] using hend

/-- A range past the last page is refused and nothing is stored; any other range gets the status,
all other bits stay, and every store is inside the bitmap. -/
theorem krSetPhysicalPageStatus_exact (nrPages : Nat) (m : Bytes) (idStart n : Nat)
    (status : Bool) (hw : idStart + n < 2 ^ 64) :
    (nrPages < idStart + n →
      krSetPhysicalPageStatus nrPages m idStart n status = (false, m) ∧
      setStores nrPages m idStart n status = []) ∧
    (idStart + n ≤ nrPages →
      (krSetPhysicalPageStatus nrPages m idStart n status).1 = true ∧
      (∀ p, bit (krSetPhysicalPageStatus nrPages m idStart n status).2 p =
        if idStart ≤ p ∧ p < idStart + n then status else bit m p) ∧
      (setStores nrPages m idStart n status).foldl Store.apply m =
        (krSetPhysicalPageStatus nrPages m idStart n status).2 ∧
      ∀ w ∈ setStores nrPages m idStart n status, w.Within ((nrPages + 7) / 8)) := by
  constructor
  · intro hpast
    have hwrapped : wrap64 (idStart + n) > nrPages := by rwa [wrap64_of_lt hw]
    exact ⟨krSetPhysicalPageStatus_refused m status hwrapped, if_pos hwrapped⟩
  · intro hinside
    obtain ⟨hdone, hbits⟩ := krSetPhysicalPageStatus_spec m status hinside hw
    exact ⟨hdone, hbits, setStores_replay _ _ _ _ _, setStores_within m status hinside⟩

/-- Pages 3 to 82 of 90: a head, one store of eight bytes, one of one byte and a tail. -/
theorem krSetPhysicalPageStatus_exact_headAndTail :
    (krSetPhysicalPageStatus 90 (fun _ => 0#8) 3 80 true).1 = true ∧
    (setStores 90 (fun _ => 0#8) 3 80 true).map (fun w => (w.offset, w.width)) =
      [(0, 1), (1, 8), (9, 1), (10, 1)] ∧
    ∀ w ∈ setStores 90 (fun _ => 0#8) 3 80 true, w.Within 12 := by
  have hexact := (krSetPhysicalPageStatus_exact 90 (fun _ => 0#8) 3 80 true (by decide)).2 (by decide)
  exact ⟨hexact.1, by decide, hexact.2.2.2⟩

end Ych.PageStatus
