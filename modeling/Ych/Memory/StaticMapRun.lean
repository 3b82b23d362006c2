import Ych.Memory.StaticMapStep

/-! Runs of the loop of `VmMapStatic`, and when a static region is mapped as asked. -/
namespace Ych.Virtmemmgmt
open Words PageTree Krnlmem PAT Physmemmgmt PTE
open KrVirtualAddressMode KrTypePTE

variable {x y z : PagingState} {root v w L e pNode paddrStart : Nat} {mode : KrVirtualAddressMode}

theorem LeafPut.translation (h : LeafPut x y root v L e) (hv : Canonical v) (hL : L ≤ 3) (w : Nat) :
    translation y.tables root w =
      if Canonical w ∧ w / 2 ^ levelShift L = v / 2 ^ levelShift L then some (L, e)
      else translation x.tables root w := by
  by_cases hw : Canonical w
  · have hpre : (path v).take (4 - L) <+: path w ↔
        w / 2 ^ levelShift L = v / 2 ^ levelShift L := by
      have hlen : ((path v).take (4 - L)).length = 4 - L := by
        rw [List.length_take]
        exact Nat.min_eq_left (Nat.sub_le 4 L)
      rw [List.prefix_iff_eq_take, hlen, eq_comm, take_path_eq hw hv hL]
    rw [translation_of_canonical hw, translation_of_canonical hw, h.walks]
    by_cases heq : w / 2 ^ levelShift L = v / 2 ^ levelShift L
    · rw [if_pos (hpre.mpr heq), if_pos ⟨hw, heq⟩]
    · rw [if_neg fun h => heq (hpre.mp h), if_neg fun h => heq h.2]
  · rw [PTE.translation, PTE.translation, if_neg hw, if_neg fun h => hw h.1, if_neg hw]

theorem add_step_le {step off n : Nat} (hn : step ∣ n) (hoff : step ∣ off) (hlt : off < n) :
    off + step ≤ n := by
  have hle := Nat.le_of_dvd (by omega) (Nat.dvd_sub hn hoff)
  omega

def Ahead (step size off o : Nat) : Prop := off ≤ o ∧ o < size ∧ step ∣ o

theorem ahead_iff {step size off o : Nat} (hdvd : step ∣ off) (hlt : off < size) :
    Ahead step size off o ↔ o = off ∨ Ahead step size (off + step) o := by
  unfold Ahead
  constructor
  · rintro ⟨h1, h2, h3⟩
    by_cases heq : o = off
    · exact Or.inl heq
    · exact Or.inr ⟨add_step_le h3 hdvd (by omega), h2, h3⟩
  · rintro (rfl | ⟨h1, h2, h3⟩)
    · exact ⟨le_rfl, hlt, hdvd⟩
    · exact ⟨by omega, h2, h3⟩

theorem LeafPut.ahead {start step size off : Nat} (h : LeafPut x y root (start + off) L e)
    (hL : L ≤ 3) (hdvd : step ∣ off) (hlt : off < size)
    (hcan : ∀ o, Ahead step size off o → Canonical (start + o))
    (hnone : ∀ o, Ahead step size off o → ∀ l e,
      PTE.translation x.tables root (start + o) = some (l, e) → l ≤ L) :
    ∀ o, Ahead step size (off + step) o → ∀ l e,
      PTE.translation y.tables root (start + o) = some (l, e) → l ≤ L := by
  intro o ho l e htr
  have hin : Ahead step size off off := ⟨le_rfl, hlt, hdvd⟩
  rw [h.translation (hcan off hin) hL] at htr
  split at htr
  · rw [Option.some.injEq, Prod.mk.injEq] at htr
    exact htr.1.ge
  · exact hnone o ((ahead_iff hdvd hlt).mpr (Or.inr ho)) l e htr

/-- What the loop leaves from an offset on: the last round in a block decides its leaf. -/
structure Mapped (x y : PagingState) (root start step size L off : Nat) (leafOf : Nat → Nat) :
    Prop where
  only : PagingOnly x y
  ok : PagingOk y root
  other : ∀ w, (∀ o, Ahead step size off o →
    (start + o) / 2 ^ levelShift L ≠ w / 2 ^ levelShift L) →
    translation y.tables root w = translation x.tables root w
  leaf : ∀ o w, Ahead step size off o → (∀ o', Ahead step size off o' → o < o' →
    (start + o') / 2 ^ levelShift L ≠ (start + o) / 2 ^ levelShift L) → Canonical w →
    w / 2 ^ levelShift L = (start + o) / 2 ^ levelShift L →
    translation y.tables root w = some (L, leafOf o)

theorem modeLevel_le (mode : KrVirtualAddressMode) : modeLevel mode ≤ 1 := by
  unfold modeLevel
  split <;> omega

def leafAt (x : PagingState) (pNode : Nat) (mode : KrVirtualAddressMode) (paddrStart o : Nat) :
    Nat :=
  (vmEncodeEntryFor x pNode (modeType mode) (wrap64 (paddrStart + o))).1

theorem mapStaticFrom_spec {start step size fuel off : Nat} (hroot : root < 2 ^ 64)
    (hmode : mode = VADDR_SMALL ∨ mode = VADDR_LARGE)
    (hstart : (x.vmm.regions pNode).vaddrStart = start)
    (hstep : regionPageSize (x.vmm.regions pNode).flags = step) (hsize : start + size < 2 ^ 64)
    (hdvd : step ∣ size) (hoff : step ∣ off)
    (hcan : ∀ o, Ahead step size off o → Canonical (start + o)) (hok : PagingOk x root)
    (hnone : ∀ o, Ahead step size off o → ∀ l e,
      translation x.tables root (start + o) = some (l, e) → l ≤ modeLevel mode)
    (hcall : mapStaticFrom pNode (krPhysToVirt root) mode paddrStart size fuel off x =
      some (true, y)) :
    Mapped x y root start step size (modeLevel mode) off (leafAt x pNode mode paddrStart) := by
  induction fuel generalizing off x with
  | zero => exact absurd hcall (by simp [mapStaticFrom])
  | succ fuel ih =>
    rw [mapStaticFrom] at hcall
    by_cases hlt : off < size
    · rw [if_pos hlt] at hcall
      have hin : Ahead step size off off := ⟨le_rfl, hlt, hoff⟩
      have hnext := add_step_le hdvd hoff hlt
      have hiff := fun o => ahead_iff (o := o) hoff hlt
      cases hpage : mapStaticPage x pNode (krPhysToVirt root) mode paddrStart off with
      | none =>
        rw [hpage] at hcall
        exact absurd hcall (by simp)
      | some res =>
        obtain ⟨ok, x₁⟩ := res
        rw [hpage] at hcall
        cases ok with
        | false => exact absurd hcall (by simp)
        | true =>
          have hv : wrap64 ((x.vmm.regions pNode).vaddrStart + off) = start + off := by
            rw [hstart, wrap64_of_lt (by omega)]
          have hput := mapStaticPage_spec hok hroot hmode hv rfl
            (fun l e h => hnone off hin l e (by rwa [translation_of_canonical (hcan off hin)])) hpage
          have hlevel : modeLevel mode ≤ 3 := (modeLevel_le mode).trans (by decide)
          have htr := hput.translation (hcan off hin) hlevel
          have hflags : x₁.vmm.regions pNode = x.vmm.regions pNode := congrFun hput.only.regions pNode
          dsimp only at hcall
          rw [hflags, hstep, wrap64_of_lt (by omega)] at hcall
          have hleafAt : leafAt x₁ pNode mode paddrStart = leafAt x pNode mode paddrStart := by
            funext o
            exact vmEncodeEntryFor_congr hput.only
          have hrest := ih (by rw [hflags, hstart]) (by rw [hflags, hstep]) (Nat.dvd_add hoff dvd_rfl)
            (fun o ho => hcan o ((hiff o).mpr (Or.inr ho))) hput.ok
            (hput.ahead hlevel hoff hlt hcan hnone) hcall
          rw [hleafAt] at hrest
          refine ⟨hput.only.trans hrest.only, hrest.ok, fun w hw => ?_, fun o w ho hlast hcw hblock => ?_⟩
          · rw [hrest.other w fun o ho => hw o ((hiff o).mpr (Or.inr ho)), htr,
              if_neg fun h => hw off hin h.2.symm]
          · rcases (hiff o).mp ho with rfl | ho'
            · rw [hrest.other w fun o' ho' => ?_, htr, if_pos ⟨hcw, hblock⟩]
              · rfl
              · have hgt : o < o' := by
                  have := ho'.1
                  have hpos : 0 < step := Nat.pos_of_ne_zero fun h0 => by
                    rw [h0, Nat.zero_dvd] at hdvd
                    omega
                  omega
                rw [hblock]
                exact hlast o' ((hiff o').mpr (Or.inr ho')) hgt
            · exact hrest.leaf o w ho' (fun o' h' hgt => hlast o' ((hiff o').mpr (Or.inr h')) hgt)
                hcw hblock
    · rw [if_neg hlt, Option.some.injEq, Prod.mk.injEq] at hcall
      obtain ⟨_, rfl⟩ := hcall
      exact ⟨PagingOnly.refl, hok, fun _ _ => rfl, fun o w ho => absurd ho.2.1 (by
        have := ho.1
        omega)⟩

end Ych.Virtmemmgmt
