import Mathlib.Data.Nat.ModEq
import Ych.Memory.DmapBlocks

/-! The structures under the direct map while it is built: which blocks have their leaf, over
which blocks there are structures, and which pages are in stock for more of them. -/
namespace Ych.Virtmemmgmt
open Words PageTree PAT Physmemmgmt PTE

variable {a c e k root t : Nat} {b : Block} {bs : List Block} {T : Finset Block}
  {f : Tables (Fin 512)}

section address

theorem virtAddrBase_eq : virtAddrBase = 2 ^ 64 - 2 ^ 47 := by decide

theorem canonical_dmap (ha : a < dmapSpan) : Canonical (virtAddrBase + a) := by
  unfold dmapSpan at ha
  rw [virtAddrBase_eq]
  exact Or.inr ⟨by omega, by omega⟩

theorem div_dmap (hk : k ≤ 3) : (virtAddrBase + a) / 2 ^ levelShift k =
    virtAddrBase / 2 ^ levelShift k + a / 2 ^ levelShift k := by
  have htop : 2 ^ levelShift 3 ∣ virtAddrBase := by decide
  exact Nat.add_div_of_dvd_right ((pow_levelShift_dvd hk).trans htop)

theorem take_dmap (ha : a < dmapSpan) (hc : c < dmapSpan) (hk : k ≤ 3) :
    (path (virtAddrBase + a)).take (4 - k) = (path (virtAddrBase + c)).take (4 - k) ↔
      a / 2 ^ levelShift k = c / 2 ^ levelShift k := by
  rw [take_path_eq (canonical_dmap ha) (canonical_dmap hc) hk, div_dmap hk, div_dmap hk,
    Nat.add_left_cancel_iff]

theorem take_path_succ {v : Nat} (hk : k ≤ 3) :
    (path v).take (4 - k) = (path v).take (3 - k) ++ [indexAt k v] := by
  obtain rfl | rfl | rfl | rfl : k = 0 ∨ k = 1 ∨ k = 2 ∨ k = 3 := by omega
  · rfl
  · rfl
  · rfl
  · rfl

theorem length_take_path {v : Nat} (hk : k ≤ 3) : ((path v).take (3 - k)).length + (k + 1) = 4 := by
  have hfour : (path v).length = 4 := rfl
  rw [List.length_take, hfour]
  omega

end address

/-- The pages that become paging structures, in the order in which they are taken, with the
context and the memory manager after each. The first of them are zeroed beforehand. -/
structure Stock where
  struct : Nat → Nat
  ctx : Nat → KrDirectMappingContext
  pmm : Nat → KrPhysmemmgmtState
  zeroed : Nat
  limit : Nat
  last : ∀ n < limit, krdmiGetPhysicalOfLastPageStruct (ctx (n + 1)) (pmm (n + 1)) = struct n
  aligned : ∀ n < limit, 2 ^ 12 ∣ struct n
  lt : ∀ n < limit, struct n < 2 ^ 52
  inj : ∀ n < limit, ∀ m < limit, struct n = struct m → n = m
  zeroed_le : zeroed ≤ limit

variable {stk : Stock}

/-- The tables when a list of blocks has its leaves and there are structures over others. -/
structure DmapTables (stk : Stock) (root : Nat) (bs : List Block) (T : Finset Block)
    (f : Tables (Fin 512)) : Prop where
  tree : Tree slot f 4 root
  mapped : ∀ b ∈ bs, ∀ a, b.Holds a → ∃ e,
    walk slot f 4 root (path (virtAddrBase + a)) = some (b.level, e) ∧
      leafPhys (b.level, e) (virtAddrBase + a) = a
  unmapped : ∀ a < dmapSpan, ¬Covered bs a → walk slot f 4 root (path (virtAddrBase + a)) = none
  structs : ∀ a < dmapSpan, ∀ k, 1 ≤ k → k ≤ 3 →
    ((⟨k, a / 2 ^ levelShift k⟩ : Block) ∈ T ↔
      ∃ t, descend slot f 4 root ((path (virtAddrBase + a)).take (4 - k)) = some t)
  fresh : ∀ n, T.card ≤ n → n < stk.limit → ∀ q, descend slot f 4 root q ≠ some (stk.struct n)
  zero : ∀ n, T.card ≤ n → n < stk.zeroed → f (stk.struct n) = fun _ => 0

theorem DmapTables.not_mem (h : DmapTables stk root bs T f) (ha : a < dmapSpan) (hk1 : 1 ≤ k)
    (hk3 : k ≤ 3)
    (hparent : descend slot f 4 root ((path (virtAddrBase + a)).take (3 - k)) = some t)
    (habsent : slot k (f t (indexAt k (virtAddrBase + a))) = .absent) :
    (⟨k, a / 2 ^ levelShift k⟩ : Block) ∉ T := by
  intro hmem
  have hlen := length_take_path (v := virtAddrBase + a) hk3
  obtain ⟨t', ht'⟩ := (h.structs a ha k hk1 hk3).mp hmem
  rw [take_path_succ hk3, ← hlen, descend_append (hlen.symm ▸ hparent), descend, habsent] at ht'
  exact absurd ht' (by simp)

theorem DmapTables.grow (h : DmapTables stk root bs T f) (ha : a < dmapSpan) (hk1 : 1 ≤ k)
    (hk3 : k ≤ 3)
    (hparent : descend slot f 4 root ((path (virtAddrBase + a)).take (3 - k)) = some t)
    (habsent : slot k (f t (indexAt k (virtAddrBase + a))) = .absent) (hn : T.card < stk.limit)
    (he : slot k e = .table (stk.struct T.card)) :
    let g := setEntry (Function.update f (stk.struct T.card) fun _ => 0) t
      (indexAt k (virtAddrBase + a)) e
    DmapTables stk root bs (insert ⟨k, a / 2 ^ levelShift k⟩ T) g ∧
      Tree.Hung slot f g 4 root ((path (virtAddrBase + a)).take (4 - k)) (stk.struct T.card) := by
  intro g
  have hlen := length_take_path (v := virtAddrBase + a) hk3
  have hhung : Tree.Hung slot f g 4 root ((path (virtAddrBase + a)).take (4 - k))
      (stk.struct T.card) := by
    have hT : Tree slot f (((path (virtAddrBase + a)).take (3 - k)).length + (k + 1)) root :=
      hlen.symm ▸ h.tree
    have hfresh := h.fresh T.card le_rfl hn
    rw [← hlen] at hparent hfresh
    have hhung := hT.hang hparent habsent he hfresh slot_zero
    rw [hlen, ← take_path_succ hk3] at hhung
    exact hhung
  have hnew := h.not_mem ha hk1 hk3 hparent habsent
  have hcard : (insert (⟨k, a / 2 ^ levelShift k⟩ : Block) T).card = T.card + 1 :=
    Finset.card_insert_of_notMem hnew
  refine ⟨⟨hhung.tree, ?_, ?_, ?_, ?_, ?_⟩, hhung⟩
  · intro b hb c hc
    rw [hhung.walks]
    exact h.mapped b hb c hc
  · intro c hc hcov
    rw [hhung.walks]
    exact h.unmapped c hc hcov
  · intro c hc l hl1 hl3
    rw [Finset.mem_insert, h.structs c hc l hl1 hl3]
    simp only [hhung.descends, exists_or]
    rw [or_comm]
    refine or_congr Iff.rfl ?_
    rw [exists_and_left, Block.mk.injEq]
    constructor
    · rintro ⟨rfl, heq⟩
      exact ⟨(take_dmap hc ha hl3).mpr heq, _, rfl⟩
    · rintro ⟨heq, _⟩
      have hlength := congrArg List.length heq
      rw [List.length_take, List.length_take] at hlength
      have hfour : (path (virtAddrBase + c)).length = 4 := rfl
      have hfour' : (path (virtAddrBase + a)).length = 4 := rfl
      obtain rfl : l = k := by omega
      exact ⟨rfl, (take_dmap hc ha hl3).mp heq⟩
  · intro n hle hlt q hq
    rw [hcard] at hle
    rcases (hhung.descends q _).mp hq with hold | ⟨_, heq⟩
    · exact h.fresh n (by omega) hlt q hold
    · have := stk.inj n hlt T.card hn heq
      omega
  · intro n hle hlt
    rw [hcard] at hle
    have hlim := hlt.trans_le stk.zeroed_le
    have hne : stk.struct n ≠ t := fun heq => h.fresh n (by omega) hlim _ (heq ▸ hparent)
    have hne' : stk.struct n ≠ stk.struct T.card := fun heq => by
      have := stk.inj n hlim T.card hn heq
      omega
    rw [show g = setEntry _ t _ e from rfl, setEntry, Function.update_of_ne hne,
      Function.update_of_ne hne']
    exact h.zero n (by omega) hlt

theorem slot_zero_ne_table (e t : Nat) : slot 0 e ≠ .table t := by
  unfold slot
  split
  · simp
  · rw [if_pos (Or.inl rfl)]
    simp

theorem DmapTables.absent (h : DmapTables stk root bs (tablesOf (bs ++ [b])) f)
    (hlevel : b.level ≤ 2) (hbelow : b.start < dmapSpan) (hapart : ∀ c ∈ bs, b.Apart c)
    (hparent : descend slot f 4 root ((path (virtAddrBase + b.start)).take (3 - b.level)) = some t) :
    slot b.level (f t (indexAt b.level (virtAddrBase + b.start))) = .absent := by
  have hk3 : b.level ≤ 3 := by omega
  have hlen := length_take_path (v := virtAddrBase + b.start) hk3
  rw [← hlen] at hparent
  cases hslot : slot b.level (f t (indexAt b.level (virtAddrBase + b.start))) with
  | absent => rfl
  | leaf =>
    have hwalk := walk_eq_leaf (r := (path (virtAddrBase + b.start)).drop (4 - b.level)) hparent hslot
    rw [hlen, List.append_cons, ← take_path_succ hk3, List.take_append_drop,
      h.unmapped b.start hbelow fun ⟨c, hc, hold⟩ => hapart c hc _ b.holds_start hold] at hwalk
    exact absurd hwalk (by simp)
  | table t' =>
    have hdesc := descend_eq_table hparent hslot
    rw [hlen, ← take_path_succ hk3] at hdesc
    have hpos : 1 ≤ b.level := by
      by_contra hzero
      rw [show b.level = 0 by omega] at hslot
      exact slot_zero_ne_table _ _ hslot
    have hmem := (h.structs b.start hbelow b.level hpos hk3).mpr ⟨t', hdesc⟩
    rw [tablesOf_append, Finset.mem_union, tablesOf_singleton] at hmem
    cases hmem with
    | inl hold =>
      refine absurd hold (not_mem_tablesOf hapart fun a ha => ?_)
      exact Eq.trans ha b.holds_start
    | inr hself => exact absurd (mem_tables.mp hself).1 (Nat.lt_irrefl _)

theorem take_prefix_dmap (hlevel : b.level ≤ 3) (hstart : b.start < dmapSpan) (ha : a < dmapSpan) :
    (path (virtAddrBase + b.start)).take (4 - b.level) <+: path (virtAddrBase + a) ↔ b.Holds a := by
  have hlength : ((path (virtAddrBase + b.start)).take (4 - b.level)).length = 4 - b.level := by
    have hfour : (path (virtAddrBase + b.start)).length = 4 := rfl
    rw [List.length_take, hfour]
    omega
  have hself : b.start / 2 ^ levelShift b.level = b.index := b.holds_start
  rw [List.prefix_iff_eq_take, hlength, take_dmap hstart ha hlevel, hself]
  exact eq_comm

theorem walk_putLeaf_dmap (hT : Tree slot f 4 root) (hlevel : b.level ≤ 3)
    (hparent : descend slot f 4 root ((path (virtAddrBase + b.start)).take (3 - b.level)) = some t)
    (he : slot b.level e = .leaf) (q : List (Fin 512)) :
    walk slot (setEntry f t (indexAt b.level (virtAddrBase + b.start)) e) 4 root q =
      if (path (virtAddrBase + b.start)).take (4 - b.level) <+: q then some (b.level, e)
      else walk slot f 4 root q := by
  have hlen := length_take_path (v := virtAddrBase + b.start) hlevel
  rw [← hlen] at hT hparent
  have := hT.walk_putLeaf (q := q) (i := indexAt b.level (virtAddrBase + b.start)) hparent he
  rwa [hlen, ← take_path_succ hlevel] at this

theorem DmapTables.putLeaf (h : DmapTables stk root bs (tablesOf (bs ++ [b])) f)
    (hlevel : b.level ≤ 2) (hbelow : ∀ a, b.Holds a → a < dmapSpan) (hapart : ∀ c ∈ bs, b.Apart c)
    (hparent : descend slot f 4 root ((path (virtAddrBase + b.start)).take (3 - b.level)) = some t)
    (he : slot b.level e = .leaf)
    (hphys : ∀ a, b.Holds a → leafPhys (b.level, e) (virtAddrBase + a) = a) :
    let g := setEntry f t (indexAt b.level (virtAddrBase + b.start)) e
    DmapTables stk root (bs ++ [b]) (tablesOf (bs ++ [b])) g ∧
      (∀ q, descend slot g 4 root q = descend slot f 4 root q) ∧
      ∀ q l, walk slot f 4 root q = some l → walk slot g 4 root q = some l := by
  intro g
  have hk3 : b.level ≤ 3 := by omega
  have hstart := hbelow _ b.holds_start
  have hlen := length_take_path (v := virtAddrBase + b.start) hk3
  have habsent := h.absent hlevel hstart hapart hparent
  have hT : Tree slot f (((path (virtAddrBase + b.start)).take (3 - b.level)).length +
      (b.level + 1)) root := hlen.symm ▸ h.tree
  have hparent' := hparent
  rw [← hlen] at hparent'
  have hdesc : ∀ q, descend slot g 4 root q = descend slot f 4 root q := by
    intro q
    have := hT.descend_putLeaf_absent (q := q) hparent' habsent he
    rwa [hlen] at this
  have hwalk : ∀ q, walk slot g 4 root q = _ := walk_putLeaf_dmap h.tree hk3 hparent he
  have hnone : ∀ q, (path (virtAddrBase + b.start)).take (4 - b.level) <+: q →
      walk slot f 4 root q = none := by
    rintro q ⟨r, rfl⟩
    rw [take_path_succ hk3, List.append_assoc, List.singleton_append, ← hlen,
      walk_eq_none hparent' habsent]
  refine ⟨⟨?_, ?_, ?_, ?_, ?_, ?_⟩, hdesc, ?_⟩
  · intro p q t' hp hq
    rw [hdesc] at hp hq
    exact h.tree p q t' hp hq
  · intro c hc a ha
    rw [hwalk]
    cases List.mem_append.mp hc with
    | inl hold =>
      obtain ⟨e', he', hphys'⟩ := h.mapped c hold a ha
      refine ⟨e', ?_, hphys'⟩
      rw [if_neg fun hpre => ?_, he']
      rw [hnone _ hpre] at he'
      exact absurd he' (by simp)
    | inr hnew =>
      obtain rfl := List.mem_singleton.mp hnew
      rw [if_pos ((take_prefix_dmap hk3 hstart (hbelow a ha)).mpr ha)]
      exact ⟨e, rfl, hphys a ha⟩
  · intro a ha hcov
    rw [covered_append] at hcov
    rw [hwalk, if_neg fun hpre => hcov (Or.inr ⟨b, List.mem_singleton_self b,
      (take_prefix_dmap hk3 hstart ha).mp hpre⟩)]
    exact h.unmapped a ha fun hold => hcov (Or.inl hold)
  · intro a ha k hk1 hk3
    rw [hdesc]
    exact h.structs a ha k hk1 hk3
  · intro n hle hlt q
    rw [hdesc]
    exact h.fresh n hle hlt q
  · intro n hle hlt
    have hne : stk.struct n ≠ t := fun heq =>
      h.fresh n hle (hlt.trans_le stk.zeroed_le) _ (heq ▸ hparent)
    rw [show g = setEntry f t _ e from rfl, setEntry, Function.update_of_ne hne]
    exact h.zero n hle hlt
  · intro q l hq
    rw [hwalk, if_neg fun hpre => ?_, hq]
    rw [hnone q hpre] at hq
    exact absurd hq (by simp)

end Ych.Virtmemmgmt
