import Mathlib.Data.List.Nodup
import Ych.Base.Links
import Ych.Memory.Krnlheap

/-! The heap as a row of blocks: headers as records, what splitting and swallowing do to the
row, and that the code's writes do just that and touch no payload. -/
namespace Ych.Krnlheap
open Words Bitmap ByteMemory Links

structure HeapHeader where
  pPrev : Nat
  pNext : Nat
  payloadSize : Nat
  bFree : Nat

def header (m : Bytes) (h : Nat) : HeapHeader := ⟨pPrev m h, pNext m h, payloadSize m h, bFree m h⟩

variable {m m' : Bytes} {h k v a b : Nat}

theorem header_congr (hs : SameOn m m' h (h + SIZEOF_HEADER)) : header m' h = header m h := by
  unfold SIZEOF_HEADER at hs
  simp only [header, pPrev, pNext, payloadSize, bFree]
  rw [load_congr (hs.mono le_rfl (by omega)), load_congr (hs.mono (by omega) (by omega)),
    load_congr (hs.mono (by omega) (by omega)), load_congr (hs.mono (by omega) (by omega))]

theorem header_setPrev (hv : v < 2 ^ 64) :
    header (setPrev m h v) h = { header m h with pPrev := v } := by
  simp only [header, pPrev, pNext, payloadSize, bFree, setPrev]
  rw [load_store_of_lt hv, load_congr (sameOn_store (by omega)),
    load_congr (sameOn_store (by omega)), load_congr (sameOn_store (by omega))]

theorem header_setNext (hv : v < 2 ^ 64) :
    header (setNext m h v) h = { header m h with pNext := v } := by
  simp only [header, pPrev, pNext, payloadSize, bFree, setNext]
  rw [load_store_of_lt hv, load_congr (sameOn_store (by omega)),
    load_congr (sameOn_store (by omega)), load_congr (sameOn_store (by omega))]

theorem header_setPayloadSize (hv : v < 2 ^ 64) :
    header (setPayloadSize m h v) h = { header m h with payloadSize := v } := by
  simp only [header, pPrev, pNext, payloadSize, bFree, setPayloadSize]
  rw [load_store_of_lt hv, load_congr (sameOn_store (by omega)),
    load_congr (sameOn_store (by omega)), load_congr (sameOn_store (by omega))]

theorem header_setFree (hv : v < 256) :
    header (setFree m h v) h = { header m h with bFree := v } := by
  simp only [header, pPrev, pNext, payloadSize, bFree, setFree]
  rw [load_store_of_lt (by omega), load_congr (sameOn_store (by omega)),
    load_congr (sameOn_store (by omega)), load_congr (sameOn_store (by omega))]

/-- A header's bytes lie apart from those from `a` up to `b`. -/
def Clear (h a b : Nat) : Prop := h + SIZEOF_HEADER ≤ a ∨ b ≤ h

theorem sameOn_setPrev (hc : Clear h a b) : SameOn m (setPrev m h v) a b := by
  unfold Clear SIZEOF_HEADER at hc
  exact sameOn_store (by omega)

theorem sameOn_setNext (hc : Clear h a b) : SameOn m (setNext m h v) a b := by
  unfold Clear SIZEOF_HEADER at hc
  exact sameOn_store (by omega)

theorem sameOn_setPayloadSize (hc : Clear h a b) : SameOn m (setPayloadSize m h v) a b := by
  unfold Clear SIZEOF_HEADER at hc
  exact sameOn_store (by omega)

theorem sameOn_setFree (hc : Clear h a b) : SameOn m (setFree m h v) a b := by
  unfold Clear SIZEOF_HEADER at hc
  exact sameOn_store (by omega)

section row
variable {hd hd' : Nat → HeapHeader} {p q i : Nat} {l r hs : List Nat}

def blockEnd (hd : Nat → HeapHeader) (h : Nat) : Nat := h + SIZEOF_HEADER + (hd h).payloadSize

/-- The blocks follow each other without a gap, from `a` up to `b`. -/
def Tiles (hd : Nat → HeapHeader) : Nat → List Nat → Nat → Prop
  | a, [], b => a = b
  | a, h :: hs, b => h = a ∧ Tiles hd (blockEnd hd h) hs b

instance decidableTiles (hd : Nat → HeapHeader) :
    ∀ (a : Nat) (hs : List Nat) (b : Nat), Decidable (Tiles hd a hs b)
  | a, [], b => inferInstanceAs (Decidable (a = b))
  | a, h :: hs, b =>
    have := decidableTiles hd (blockEnd hd h) hs b
    inferInstanceAs (Decidable (h = a ∧ Tiles hd (blockEnd hd h) hs b))

structure Blocks (hd : Nat → HeapHeader) (a b : Nat) (hs : List Nat) : Prop where
  linked : Linked (fun h => (hd h).pPrev) (fun h => (hd h).pNext) 0 hs 0
  tiles : Tiles hd a hs b
  large : ∀ h ∈ hs, HEAP_MIN_PAYLOAD_SIZE ≤ (hd h).payloadSize
  positive : 0 < a

/-- A row of blocks of any size. -/
structure Chain (hd : Nat → HeapHeader) (a b : Nat) (hs : List Nat) : Prop where
  linked : Linked (fun h => (hd h).pPrev) (fun h => (hd h).pNext) 0 hs 0
  tiles : Tiles hd a hs b
  positive : 0 < a

theorem Blocks.chain (hB : Blocks hd a b hs) : Chain hd a b hs :=
  ⟨hB.linked, hB.tiles, hB.positive⟩

theorem Chain.blocks (hC : Chain hd a b hs)
    (hlarge : ∀ h ∈ hs, HEAP_MIN_PAYLOAD_SIZE ≤ (hd h).payloadSize) : Blocks hd a b hs :=
  ⟨hC.linked, hC.tiles, hlarge, hC.positive⟩

theorem tiles_append : Tiles hd a (l ++ r) b ↔ ∃ c, Tiles hd a l c ∧ Tiles hd c r b := by
  induction l generalizing a with
  | nil => exact ⟨fun h => ⟨a, rfl, h⟩, fun ⟨c, h, hr⟩ => by rw [show a = c from h]; exact hr⟩
  | cons h l ih =>
    constructor
    · rintro ⟨rfl, hrest⟩
      obtain ⟨c, hl, hr⟩ := ih.mp hrest
      exact ⟨c, ⟨rfl, hl⟩, hr⟩
    · rintro ⟨c, ⟨rfl, hl⟩, hr⟩
      exact ⟨rfl, ih.mpr ⟨c, hl, hr⟩⟩

theorem Tiles.congr (ht : Tiles hd a hs b)
    (hsame : ∀ h ∈ hs, (hd' h).payloadSize = (hd h).payloadSize) : Tiles hd' a hs b := by
  induction hs generalizing a with
  | nil => exact ht
  | cons h hs ih =>
    obtain ⟨rfl, hrest⟩ := ht
    have hend : blockEnd hd' h = blockEnd hd h := by
      rw [blockEnd, blockEnd, hsame h List.mem_cons_self]
    exact ⟨rfl, hend ▸ ih hrest fun k hk => hsame k (List.mem_cons_of_mem h hk)⟩

theorem blockEnd_gt (hd : Nat → HeapHeader) (h : Nat) : h + SIZEOF_HEADER ≤ blockEnd hd h :=
  Nat.le_add_right _ _

theorem Tiles.le (ht : Tiles hd a hs b) : a ≤ b := by
  induction hs generalizing a with
  | nil => exact le_of_eq ht
  | cons h hs ih =>
    obtain ⟨rfl, hrest⟩ := ht
    have := ih hrest
    have := blockEnd_gt hd h
    omega

theorem Tiles.within (ht : Tiles hd a hs b) (hh : h ∈ hs) : a ≤ h ∧ blockEnd hd h ≤ b := by
  induction hs generalizing a with
  | nil => exact absurd hh List.not_mem_nil
  | cons k hs ih =>
    obtain ⟨rfl, hrest⟩ := ht
    rcases List.mem_cons.mp hh with rfl | hh
    · exact ⟨le_rfl, hrest.le⟩
    · have := ih hrest hh
      have := blockEnd_gt hd k
      omega

theorem Tiles.pairwise (ht : Tiles hd a hs b) : hs.Pairwise fun h k => blockEnd hd h ≤ k := by
  induction hs generalizing a with
  | nil => exact List.Pairwise.nil
  | cons h hs ih =>
    obtain ⟨rfl, hrest⟩ := ht
    exact List.pairwise_cons.mpr ⟨fun k hk => (hrest.within hk).1, ih hrest⟩

theorem Tiles.apart (ht : Tiles hd a hs b) (hh : h ∈ hs) (hk : k ∈ hs) (hne : h ≠ k) :
    blockEnd hd h ≤ k ∨ blockEnd hd k ≤ h := by
  induction hs generalizing a with
  | nil => exact absurd hh List.not_mem_nil
  | cons c hs ih =>
    obtain ⟨rfl, hrest⟩ := ht
    rcases List.mem_cons.mp hh with rfl | hh'
    · rcases List.mem_cons.mp hk with rfl | hk'
      · exact absurd rfl hne
      · exact Or.inl (hrest.within hk').1
    · rcases List.mem_cons.mp hk with rfl | hk'
      · exact Or.inr (hrest.within hh').1
      · exact ih hrest hh' hk'

theorem Tiles.nodup (ht : Tiles hd a hs b) : hs.Nodup := by
  refine ht.pairwise.imp fun {h k} hle heq => ?_
  have hgt := blockEnd_gt hd h
  unfold SIZEOF_HEADER at hgt
  omega

theorem Tiles.length_le (ht : Tiles hd a hs b) : hs.length + a ≤ b := by
  induction hs generalizing a with
  | nil => rw [List.length_nil, Nat.zero_add]; exact le_of_eq ht
  | cons h hs ih =>
    obtain ⟨rfl, hrest⟩ := ht
    have := ih hrest
    have hgt := blockEnd_gt hd h
    unfold SIZEOF_HEADER at hgt
    rw [List.length_cons]
    omega

theorem Tiles.unique {hs' : List Nat} (ht : Tiles hd a hs b) (ht' : Tiles hd a hs' b) :
    hs = hs' := by
  induction hs generalizing a hs' with
  | nil =>
    cases hs' with
    | nil => rfl
    | cons k hs' =>
      obtain rfl := (show a = b from ht)
      have := ht'.length_le
      rw [List.length_cons] at this
      omega
  | cons h hs ih =>
    obtain ⟨rfl, hrest⟩ := ht
    cases hs' with
    | nil =>
      have hle := (show Tiles hd h (h :: hs) b from ⟨rfl, hrest⟩).length_le
      rw [List.length_cons, show h = b from ht'] at hle
      omega
    | cons k hs' =>
      obtain ⟨rfl, hrest'⟩ := ht'
      rw [ih hrest hrest']

theorem Chain.zero_notMem (hC : Chain hd a b hs) : 0 ∉ hs := by
  intro h0
  have := (hC.tiles.within h0).1
  have := hC.positive
  omega

theorem Chain.congr (hC : Chain hd a b hs)
    (hsame : ∀ h ∈ hs, (hd' h).pPrev = (hd h).pPrev ∧ (hd' h).pNext = (hd h).pNext ∧
      (hd' h).payloadSize = (hd h).payloadSize) : Chain hd' a b hs :=
  ⟨hC.linked.congr (fun h hh => (hsame h hh).1) (fun h hh => (hsame h hh).2.1),
    hC.tiles.congr fun h hh => (hsame h hh).2.2, hC.positive⟩

/-- The updates at a seam of the row: `p` keeps its predecessor and its successor is now `c`,
what followed the seam has the predecessor `d`. -/
structure SeamUpdate (hd hd' : Nat → HeapHeader) (l r : List Nat) (p c d : Nat) : Prop where
  prevSame : (hd' p).pPrev = (hd p).pPrev
  next : (hd' p).pNext = c
  prev : ∀ k ∈ l ++ r, (hd' k).pPrev = if k = r.headD 0 then d else (hd k).pPrev
  nextSame : ∀ k ∈ l ++ r, (hd' k).pNext = (hd k).pNext
  sizeSame : ∀ k ∈ l ++ r, (hd' k).payloadSize = (hd k).payloadSize

theorem SeamUpdate.links {c d : Nat} (hu : SeamUpdate hd hd' l r p c d)
    (hnd : (l ++ [p] ++ r).Nodup) (h0 : 0 ∉ l ++ [p] ++ r) :
    (∀ k ∈ l ++ [p] ++ r, (hd' k).pPrev = if k = r.headD 0 then d else (hd k).pPrev) ∧
    ∀ k ∈ l ++ [p] ++ r, (hd' k).pNext =
      if k = (l ++ [p]).getLastD 0 then c else (hd k).pNext := by
  have hpl : p ∈ l ++ [p] := List.mem_append_right l (List.mem_singleton_self p)
  have hsplit : ∀ k ∈ l ++ [p] ++ r, k = p ∨ k ∈ l ++ r := by
    intro k hk
    simp only [List.mem_append, List.mem_singleton] at hk ⊢
    rcases hk with (hk | hk) | hk
    · exact Or.inr (Or.inl hk)
    · exact Or.inl hk
    · exact Or.inr (Or.inr hk)
  have hp : p ∉ l ++ r := by
    rw [← List.append_cons, List.nodup_middle] at hnd
    exact (List.nodup_cons.mp hnd).1
  constructor
  · intro k hk
    rcases hsplit k hk with rfl | hk
    · rw [hu.prevSame, if_neg (ne_headD_right hnd h0 hpl)]
    · exact hu.prev k hk
  · intro k hk
    rw [getLastD_append, List.getLastD_cons]
    rcases hsplit k hk with rfl | hk'
    · exact hu.next.trans (if_pos rfl).symm
    · rw [hu.nextSame k hk', if_neg]
      intro heq
      rw [heq] at hk'
      exact hp hk'

theorem Chain.next_eq (hC : Chain hd a b (l ++ p :: r)) : (hd p).pNext = r.headD 0 :=
  (linked_append.mp hC.linked).2.2.1

theorem Chain.prev_eq (hC : Chain hd a b (l ++ p :: r)) : (hd p).pPrev = l.getLastD 0 :=
  (linked_append.mp hC.linked).2.1

theorem Chain.tiles_middle (hC : Chain hd a b (l ++ p :: r)) :
    Tiles hd a l p ∧ Tiles hd (blockEnd hd p) r b := by
  obtain ⟨c, hl, rfl, hr⟩ := tiles_append.mp hC.tiles
  exact ⟨hl, hr⟩

theorem Chain.split (hC : Chain hd a b (l ++ p :: r))
    (hu : SeamUpdate hd hd' l r p i i) (hp : blockEnd hd' p = i)
    (hi : (hd' i).pPrev = p ∧ (hd' i).pNext = (hd p).pNext ∧ blockEnd hd' i = blockEnd hd p) :
    Chain hd' a b (l ++ p :: i :: r) := by
  have hlinked := hC.linked
  have hnd := hC.tiles.nodup
  have h0 := hC.zero_notMem
  obtain ⟨hl, hr⟩ := hC.tiles_middle
  rw [List.append_cons] at hlinked hnd h0
  obtain ⟨hprev, hnext⟩ := hu.links hnd h0
  refine ⟨?_, tiles_append.mpr ⟨p, ?_, rfl, ?_, ?_⟩, hC.positive⟩
  · rw [List.append_cons]
    refine hlinked.insert hnd h0 ?_ (hi.2.1.trans hC.next_eq) hprev hnext
    rw [getLastD_append, List.getLastD_cons]
    exact hi.1
  · exact hl.congr fun k hk => hu.sizeSame k (List.mem_append_left r hk)
  · exact hp.symm
  · rw [hi.2.2]
    exact hr.congr fun k hk => hu.sizeSame k (List.mem_append_right l hk)

theorem Chain.swallow (hC : Chain hd a b (l ++ p :: q :: r))
    (hu : SeamUpdate hd hd' l r p (hd q).pNext p) (hp : blockEnd hd' p = blockEnd hd q) :
    Chain hd' a b (l ++ p :: r) := by
  have hlinked := hC.linked
  have hnd := hC.tiles.nodup
  have h0 := hC.zero_notMem
  obtain ⟨hl, hq, hr⟩ := hC.tiles_middle
  rw [List.append_cons] at hlinked hnd h0
  have hnextq : (hd q).pNext = r.headD 0 := (linked_append.mp hlinked).2.2.1
  have hsub : (l ++ [p] ++ r).Sublist (l ++ [p] ++ q :: r) :=
    (List.sublist_cons_self q r).append_left _
  have hnd' := hnd.sublist hsub
  have h0' : 0 ∉ l ++ [p] ++ r := fun h => h0 (hsub.subset h)
  obtain ⟨hprev, hnext'⟩ := hu.links hnd' h0'
  refine ⟨?_, tiles_append.mpr ⟨p, ?_, rfl, ?_⟩, hC.positive⟩
  · rw [List.append_cons]
    refine hlinked.remove hnd' h0' (fun k hk => ?_) (fun k hk => ?_)
    · rw [getLastD_append, List.getLastD_cons]
      exact hprev k hk
    · exact (hnext' k hk).trans (by rw [hnextq])
  · exact hl.congr fun k hk => hu.sizeSame k (List.mem_append_left r hk)
  · rw [hp]
    exact hr.congr fun k hk => hu.sizeSame k (List.mem_append_right l hk)

end row

end Ych.Krnlheap
