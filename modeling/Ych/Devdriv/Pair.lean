import Mathlib.Data.Finset.Card
import Ych.Devdriv.Device

/-! Pairing of devices with drivers: a walk over the device tree that reaches nodes along several
routes, offers each device to the loaded drivers, and counts those it binds. -/
namespace Ych.Devdriv
open Words SiblingForest

def PCI_ANY_VENDOR_ID : Nat := 0xFFFF
def PCI_ANY_DEVICE_ID : Nat := 0xFFFF
def PCI_ANY_BUS : Nat := 0xFF
def PCI_ANY_DEVICE : Nat := 0xFF
def PCI_ANY_FUNCTION : Nat := 0xFF
def PCI_ANY_PROG_IF : Nat := 0xFF
def PCI_ANY_CLASS : Nat := 0xFF
def PCI_ANY_SUBCLASS : Nat := 0xFF

structure DriverMatchMethod where
  onBus : BusType
  pci : PciDeviceId

/-- The entries before the terminator. -/
structure MatchMethods where
  methods : List DriverMatchMethod
  unterminated : ∀ m ∈ methods, m.onBus ≠ .BUS_IVLD

/-- The callbacks see the nodes and may change anything but these: what they may change is the
state of type `σ`. -/
structure Driver (σ : Type*) where
  pMatchMethods : Option MatchMethods
  devProbe : Option (σ → (Nat → DeviceNode) → Nat → DriverMatchMethod → Bool × σ)
  devInit : Option (σ → (Nat → DeviceNode) → Nat → Bool × σ)

structure DriverInfo (σ : Type*) where
  drivers : Nat → Driver σ
  pTable : List Nat

structure Try where
  pDriver : Nat
  pDevice : Nat
  owner : Nat

/-- The nodes and what the callbacks change; `tries` records the calls and nothing reads it. -/
structure PairState (σ : Type*) where
  devices : Nat → DeviceNode
  world : σ
  tries : List Try

variable {σ : Type*}

def PairState.bind (s : PairState σ) (pDevice pDriver : Nat) : PairState σ :=
  { s with
    devices := Function.update s.devices pDevice { s.devices pDevice with pDriver := pDriver } }

def pciMatches (m d : PciDeviceId) : Bool :=
  (m.vendorID = PCI_ANY_VENDOR_ID || m.vendorID = d.vendorID) &&
  (m.deviceID = PCI_ANY_DEVICE_ID || m.deviceID = d.deviceID) &&
  (m.bus = PCI_ANY_BUS || m.bus = d.bus) &&
  (m.device = PCI_ANY_DEVICE || m.device = d.device) &&
  (m.function = PCI_ANY_FUNCTION || m.function = d.function) &&
  (m.progIF = PCI_ANY_PROG_IF || m.progIF = d.progIF) &&
  (m.classCode = PCI_ANY_CLASS || m.classCode = d.classCode) &&
  (m.subClass = PCI_ANY_SUBCLASS || m.subClass = d.subClass)

def isDriverCompatibleWithDevice (driver : Driver σ) (device : DeviceNode) :
    Option DriverMatchMethod :=
  match driver.pMatchMethods with
  | none => none
  | some table => table.methods.find? fun method =>
      device.onBus = method.onBus && method.onBus = .BUS_PCI && pciMatches method.pci device.pci

def tryPairDriverWithDevice (t : DriverInfo σ) (s : PairState σ) (pDriver pDevice : Nat) :
    Bool × PairState σ :=
  let s := { s with tries := ⟨pDriver, pDevice, (s.devices pDevice).pDriver⟩ :: s.tries }
  if pDriver = 0 ∨ pDevice = 0 ∨ (s.devices pDevice).pDriver ≠ 0 then (false, s)
  else
    match (t.drivers pDriver).devInit, (t.drivers pDriver).devProbe with
    | some devInit, some devProbe =>
      match isDriverCompatibleWithDevice (t.drivers pDriver) (s.devices pDevice) with
      | none => (false, s)
      | some method =>
        let (found, world) := devProbe s.world s.devices pDevice method
        let s := { s with world := world }
        if found = false then (false, s)
        else
          let s := s.bind pDevice pDriver
          let (ready, world) := devInit s.world s.devices pDevice
          let s := { s with world := world }
          if ready = false then (false, s.bind pDevice 0) else (true, s)
    | _, _ => (false, s)

def tryDrivers (t : DriverInfo σ) (pDevice : Nat) : List Nat → PairState σ → Bool × PairState σ
  | [], s => (false, s)
  | pDriver :: table, s =>
    match tryPairDriverWithDevice t s pDriver pDevice with
    | (true, s) => (true, s)
    | (false, s) => tryDrivers t pDevice table s

def tryPairDeviceWithAnyDriver (t : DriverInfo σ) (s : PairState σ) (pDevice : Nat) :
    Bool × PairState σ := tryDrivers t pDevice t.pTable s

def pairOne (t : DriverInfo σ) (s : PairState σ) (nrPaired p : Nat) : Nat × PairState σ :=
  let (paired, s) := tryPairDeviceWithAnyDriver t s p
  (if paired then wrap32 (nrPaired + 1) else nrPaired, s)

/-- From `KidLoop` on; `recurse` is the call of the function itself. -/
def kidLoop (t : DriverInfo σ) (recurse : PairState σ → Nat → Option (Nat × PairState σ)) :
    Nat → PairState σ → Nat → Nat → Nat → Option (Nat × PairState σ)
  | 0, _, _, _, _ => none
  | fuel + 1, s, nrPaired, pKidBase, pKid =>
    if pKid ≠ 0 then
      let (nrPaired, s) := pairOne t s nrPaired pKid
      let pSib := (s.devices pKid).pNxtSib
      if pSib ≠ 0 then
        match recurse s pSib with
        | none => none
        | some (n, s) =>
          kidLoop t recurse fuel s (wrap32 (nrPaired + n)) pKidBase (s.devices pKid).p1stKid
      else kidLoop t recurse fuel s nrPaired pKidBase (s.devices pKid).p1stKid
    else if pKidBase ≠ 0 then
      let pKid := (s.devices pKidBase).pNxtSib
      kidLoop t recurse fuel s nrPaired pKid pKid
    else some (nrPaired, s)

def rootLoop (t : DriverInfo σ) (recurse : PairState σ → Nat → Option (Nat × PairState σ)) :
    Nat → PairState σ → Nat → Nat → Option (Nat × PairState σ)
  | 0, _, _, _ => none
  | fuel + 1, s, nrPaired, pRootNode =>
    if pRootNode = 0 then some (nrPaired, s)
    else
      let (nrPaired, s) := pairOne t s nrPaired pRootNode
      let pKidBase := (s.devices pRootNode).p1stKid
      match kidLoop t recurse fuel s nrPaired pKidBase pKidBase with
      | none => none
      | some (nrPaired, s) =>
        rootLoop t recurse fuel s nrPaired (s.devices pRootNode).pNxtSib

/-- The fuel bounds the depth of the recursion and each loop. -/
def localDevdrivPairAttempt (t : DriverInfo σ) :
    Nat → PairState σ → Nat → Option (Nat × PairState σ)
  | 0, _, _ => none
  | fuel + 1, s, pRootNode =>
    if pRootNode = 0 then some (0, s)
    else rootLoop t (localDevdrivPairAttempt t fuel) fuel s 0 pRootNode

def globalDevdrivPairAttempt (img : DeviceImage) (t : DriverInfo σ) (fuel : Nat)
    (s : PairState σ) : Option (Nat × PairState σ) :=
  localDevdrivPairAttempt t fuel s (getSystemRootDevice img)

def kidIn (s : PairState σ) (p : Nat) : Nat := (s.devices p).p1stKid
def sibIn (s : PairState σ) (p : Nat) : Nat := (s.devices p).pNxtSib
def ownerOf (s : PairState σ) (d : Nat) : Nat := (s.devices d).pDriver

def Offered (t : DriverInfo σ) (s : PairState σ) (d : Nat) : Prop :=
  (∀ p ∈ t.pTable, ⟨p, d, 0⟩ ∈ s.tries) ∨
  ∃ before p after, t.pTable = before ++ p :: after ∧ p ≠ 0 ∧ ownerOf s d = p ∧
    ∀ q ∈ before ++ [p], ⟨q, d, 0⟩ ∈ s.tries

variable {t : DriverInfo σ} {s x y : PairState σ} {pDriver d n m : Nat}

theorem bind_devices (s : PairState σ) (p q e : Nat) :
    (s.bind p q).devices e = if e = p then { s.devices p with pDriver := q } else s.devices e :=
  Function.update_apply s.devices p _ e

def BoundTo (s : PairState σ) (d p : Nat) (x : PairState σ) : Prop :=
  ownerOf s d = 0 ∧ p ≠ 0 ∧ x.devices = (s.bind d p).devices

theorem bind_unbind (s : PairState σ) (p : Nat) (h : ownerOf s d = 0) :
    ((s.bind d p).bind d 0).devices = s.devices := by
  funext e
  rw [bind_devices, bind_devices]
  by_cases he : e = d
  · rw [if_pos he, if_pos rfl, he, ← h]
    rfl
  · rw [if_neg he, bind_devices, if_neg he]

theorem tryPairDriverWithDevice_spec (t : DriverInfo σ) (s : PairState σ) (pDriver d : Nat) :
    let r := tryPairDriverWithDevice t s pDriver d
    r.2.tries = ⟨pDriver, d, ownerOf s d⟩ :: s.tries ∧
      (r.1 = true → BoundTo s d pDriver r.2) ∧ (r.1 = false → r.2.devices = s.devices) := by
  dsimp only [tryPairDriverWithDevice]
  split
  · exact ⟨rfl, Bool.noConfusion, fun _ => rfl⟩
  · rename_i hready
    obtain ⟨hp, _, hfree⟩ := not_or.mp hready |>.imp id not_or.mp
    have hfree : ownerOf s d = 0 := not_not.mp hfree
    split
    · split
      · exact ⟨rfl, Bool.noConfusion, fun _ => rfl⟩
      · split
        · exact ⟨rfl, Bool.noConfusion, fun _ => rfl⟩
        · split
          · exact ⟨rfl, Bool.noConfusion, fun _ => bind_unbind s pDriver hfree⟩
          · exact ⟨rfl, fun _ => ⟨hfree, hp, rfl⟩, Bool.noConfusion⟩
    · exact ⟨rfl, Bool.noConfusion, fun _ => rfl⟩

/-- What offering `d` to the drivers of a table does. -/
structure TriedAll (s : PairState σ) (d : Nat) (table : List Nat) (b : Bool) (x : PairState σ) :
    Prop where
  tries : s.tries ⊆ x.tries
  refused : b = false → x.devices = s.devices ∧ ∀ p ∈ table, ⟨p, d, ownerOf s d⟩ ∈ x.tries
  taken : b = true → ∃ before p after, table = before ++ p :: after ∧ BoundTo s d p x ∧
    ∀ q ∈ before ++ [p], ⟨q, d, 0⟩ ∈ x.tries

theorem tryDrivers_spec (t : DriverInfo σ) (d : Nat) (table : List Nat) (s : PairState σ) :
    TriedAll s d table (tryDrivers t d table s).1 (tryDrivers t d table s).2 := by
  induction table generalizing s with
  | nil =>
    exact ⟨List.Subset.refl _, fun _ => ⟨rfl, fun p hp => absurd hp List.not_mem_nil⟩,
      Bool.noConfusion⟩
  | cons p table ih =>
    obtain ⟨htries, htrue, hfalse⟩ := tryPairDriverWithDevice_spec t s p d
    rw [tryDrivers]
    generalize tryPairDriverWithDevice t s p d = r at htries htrue hfalse
    obtain ⟨b, x⟩ := r
    have hgrow : s.tries ⊆ x.tries := htries ▸ List.subset_cons_self _ _
    have htried : ⟨p, d, ownerOf s d⟩ ∈ x.tries := htries ▸ List.mem_cons_self
    cases b with
    | true =>
      have hbound := htrue rfl
      refine ⟨hgrow, Bool.noConfusion, fun _ => ⟨[], p, table, rfl, hbound, fun q hq => ?_⟩⟩
      rw [List.mem_singleton.mp hq, ← hbound.1]
      exact htried
    | false =>
      have hsame : x.devices = s.devices := hfalse rfl
      have howner : ownerOf x d = ownerOf s d := by rw [ownerOf, hsame, ownerOf]
      have hrest := ih x
      refine ⟨List.Subset.trans hgrow hrest.tries, fun hb => ?_, fun hb => ?_⟩
      · obtain ⟨hdevices, hall⟩ := hrest.refused hb
        refine ⟨hdevices.trans hsame, fun q hq => ?_⟩
        cases List.mem_cons.mp hq with
        | inl heq => exact heq ▸ hrest.tries htried
        | inr hq => exact howner ▸ hall q hq
      · obtain ⟨before, q, after, htable, ⟨hfree, hq, hbound⟩, hall⟩ := hrest.taken hb
        refine ⟨p :: before, q, after, by rw [htable, List.cons_append],
          ⟨howner ▸ hfree, hq, ?_⟩, fun e he => ?_⟩
        · rw [hbound]
          simp only [PairState.bind, hsame]
        · cases List.mem_cons.mp he with
          | inl heq =>
            rw [heq, ← howner.symm.trans hfree]
            exact hrest.tries htried
          | inr he => exact hall e he

def newlyBound (u : Finset Nat) (s x : PairState σ) : Finset Nat :=
  u.filter fun d => ownerOf s d = 0 ∧ ownerOf x d ≠ 0

/-- A part of the walk: it writes the drivers of unbound nodes among `u`, has offered those it
bound and those in `offers`, and counts the ones it bound. -/
structure PairRun (t : DriverInfo σ) (u : Finset Nat) (s : PairState σ) (n : Nat)
    (offers : List Nat) (x : PairState σ) (m : Nat) : Prop where
  links : ∀ d, kidIn x d = kidIn s d ∧ sibIn x d = sibIn s d
  outside : ∀ d ∉ u, x.devices d = s.devices d
  kept : ∀ d, ownerOf s d ≠ 0 → ownerOf x d = ownerOf s d
  tries : s.tries ⊆ x.tries
  bound : ∀ d, ownerOf s d = 0 → ownerOf x d ≠ 0 → Offered t x d
  offered : ∀ d ∈ offers, ownerOf s d = 0 → Offered t x d
  count : n < 2 ^ 32 → m = wrap32 (n + (newlyBound u s x).card)

variable {u : Finset Nat} {l r : List Nat} {k : Nat}

theorem PairRun.refl (t : DriverInfo σ) (u : Finset Nat) (s : PairState σ) (n : Nat) :
    PairRun t u s n [] s n := by
  refine ⟨fun _ => ⟨rfl, rfl⟩, fun _ _ => rfl, fun _ _ => rfl, List.Subset.refl _,
    fun d hfree hbound => absurd hfree hbound, fun d hd => absurd hd List.not_mem_nil,
    fun hn => ?_⟩
  have hnone : newlyBound u s s = ∅ := Finset.filter_false_of_mem fun d _ h => h.2 h.1
  rw [hnone, Finset.card_empty, Nat.add_zero, wrap32_of_lt hn]

theorem PairRun.offered_of (h : PairRun t u s n l x m) {d : Nat} (hd : Offered t s d) :
    Offered t x d := by
  cases hd with
  | inl hall => exact Or.inl fun p hp => h.tries (hall p hp)
  | inr hsome =>
    obtain ⟨before, p, after, htable, hp, howner, hall⟩ := hsome
    have hkept : ownerOf x d = p := (h.kept d (howner ▸ hp)).trans howner
    exact Or.inr ⟨before, p, after, htable, hp, hkept, fun q hq => h.tries (hall q hq)⟩

theorem PairRun.newlyBound_card (h : PairRun t u s n l x m) (h' : PairRun t u x m r y k) :
    (newlyBound u s y).card = (newlyBound u s x).card + (newlyBound u x y).card := by
  have hdisj : Disjoint (newlyBound u s x) (newlyBound u x y) := by
    refine Finset.disjoint_left.mpr fun d hd hd' => ?_
    exact (Finset.mem_filter.mp hd).2.2 (Finset.mem_filter.mp hd').2.1
  rw [← Finset.card_union_of_disjoint hdisj]
  congr 1
  ext d
  simp only [newlyBound, Finset.mem_union, Finset.mem_filter]
  constructor
  · rintro ⟨hu, hfree, hbound⟩
    by_cases hx : ownerOf x d = 0
    · exact Or.inr ⟨hu, hx, hbound⟩
    · exact Or.inl ⟨hu, hfree, hx⟩
  · rintro (⟨hu, hfree, hx⟩ | ⟨hu, hx, hbound⟩)
    · exact ⟨hu, hfree, by rw [h'.kept d hx]; exact hx⟩
    · refine ⟨hu, ?_, hbound⟩
      by_contra hs
      exact hs ((h.kept d hs).symm.trans hx)

theorem PairRun.trans (h : PairRun t u s n l x m) (h' : PairRun t u x m r y k) :
    PairRun t u s n (l ++ r) y k := by
  refine ⟨fun d => ⟨(h'.links d).1.trans (h.links d).1, (h'.links d).2.trans (h.links d).2⟩,
    fun d hd => (h'.outside d hd).trans (h.outside d hd), fun d hd => ?_,
    List.Subset.trans h.tries h'.tries, fun d hfree hbound => ?_, fun d hd hfree => ?_,
    fun hn => ?_⟩
  · have hx := h.kept d hd
    exact (h'.kept d (hx ▸ hd)).trans hx
  · by_cases hx : ownerOf x d = 0
    · exact h'.bound d hx hbound
    · exact h'.offered_of (h.bound d hfree hx)
  · cases List.mem_append.mp hd with
    | inl hl => exact h'.offered_of (h.offered d hl hfree)
    | inr hr =>
      by_cases hx : ownerOf x d = 0
      · exact h'.offered d hr hx
      · exact h'.offered_of (h.bound d hfree hx)
  · have hm := h.count hn
    rw [h'.count (hm ▸ wrap32_lt _), hm, h.newlyBound_card h']
    unfold wrap32
    omega

theorem PairRun.add (h : PairRun t u s 0 l x m) (n : Nat) :
    PairRun t u s n l x (wrap32 (n + m)) := by
  refine ⟨h.links, h.outside, h.kept, h.tries, h.bound, h.offered, fun _ => ?_⟩
  rw [h.count (by decide)]
  unfold wrap32
  omega

theorem PairRun.mono (h : PairRun t u s n l x m) (hsub : r ⊆ l) : PairRun t u s n r x m :=
  ⟨h.links, h.outside, h.kept, h.tries, h.bound, fun d hd => h.offered d (hsub hd), h.count⟩

theorem pairOne_spec (hd : d ∈ u) :
    PairRun t u s n [d] (pairOne t s n d).2 (pairOne t s n d).1 := by
  have h := tryDrivers_spec t d t.pTable s
  rw [pairOne, tryPairDeviceWithAnyDriver]
  generalize tryDrivers t d t.pTable s = r at h
  obtain ⟨b, x⟩ := r
  cases b with
  | false =>
    obtain ⟨hsame, hall⟩ := h.refused rfl
    change x.devices = s.devices at hsame
    have howner : ∀ e, ownerOf x e = ownerOf s e := fun e => by rw [ownerOf, hsame, ownerOf]
    refine ⟨fun e => ?_, fun e _ => congrFun hsame e, fun e _ => howner e, h.tries,
      fun e hfree hbound => absurd ((howner e).trans hfree) hbound, fun e he hfree => ?_,
      fun hn => ?_⟩
    · rw [kidIn, sibIn, hsame]
      exact ⟨rfl, rfl⟩
    · rw [List.mem_singleton.mp he] at hfree ⊢
      exact Or.inl (hfree ▸ hall)
    · have hnone : newlyBound u s x = ∅ :=
        Finset.filter_false_of_mem fun e _ he => he.2 ((howner e).trans he.1)
      simp only [hnone, Finset.card_empty, Nat.add_zero, wrap32_of_lt hn]
      rfl
  | true =>
    obtain ⟨before, p, after, htable, ⟨hfree, hp, hbound⟩, hall⟩ := h.taken rfl
    have hx : ∀ e, x.devices e = if e = d then { s.devices d with pDriver := p } else s.devices e :=
      fun e => by rw [hbound, bind_devices]
    have hother : ∀ e, e ≠ d → x.devices e = s.devices e := fun e he => by rw [hx, if_neg he]
    have howner : ownerOf x d = p := by rw [ownerOf, hx, if_pos rfl]
    have hoffered : Offered t x d := Or.inr ⟨before, p, after, htable, hp, howner, hall⟩
    refine ⟨fun e => ?_, fun e he => hother e fun heq => he (heq ▸ hd), fun e he => ?_, h.tries,
      fun e he hbound => ?_, fun e he _ => List.mem_singleton.mp he ▸ hoffered, fun hn => ?_⟩
    · by_cases he : e = d
      · simp only [kidIn, sibIn, hx, he, if_true, and_self]
      · simp only [kidIn, sibIn, hother e he, and_self]
    · have hne : e ≠ d := fun heq => he (heq ▸ hfree)
      rw [ownerOf, hother e hne, ownerOf]
    · by_cases heq : e = d
      · exact heq ▸ hoffered
      · rw [ownerOf, hother e heq] at hbound
        exact absurd he hbound
    · have hone : newlyBound u s x = {d} := by
        ext e
        simp only [newlyBound, Finset.mem_filter, Finset.mem_singleton]
        constructor
        · rintro ⟨_, he, hne⟩
          by_contra heq
          rw [ownerOf, hother e heq] at hne
          exact hne he
        · rintro rfl
          exact ⟨hd, hfree, howner ▸ hp⟩
      simp only [hone, Finset.card_singleton, if_true]

structure HangsIn (u : Finset Nat) (s : PairState σ) (p : Nat) (f : Forest Nat) : Prop where
  spans : Spans (kidIn s) (sibIn s) 0 p f
  among : ∀ d ∈ f.nodes, d ∈ u

variable {f kids siblings base : Forest Nat} {p q : Nat}

theorem HangsIn.run (h : HangsIn u s p f) (hrun : PairRun t u s n l x m) : HangsIn u x p f :=
  ⟨h.spans.congr (fun d _ => (hrun.links d).1) fun d _ => (hrun.links d).2, h.among⟩

theorem HangsIn.split (h : HangsIn u s p (.cons d kids siblings)) :
    p = d ∧ d ≠ 0 ∧ d ∈ u ∧ HangsIn u s (s.devices d).p1stKid kids ∧
      HangsIn u s (s.devices d).pNxtSib siblings := by
  obtain ⟨hp, hd, hk, hs⟩ := h.spans
  refine ⟨hp, hd, h.among d List.mem_cons_self, ⟨hk, fun e he => ?_⟩, hs, fun e he => ?_⟩
  · exact h.among e (List.mem_cons_of_mem d (List.mem_append_left _ he))
  · exact h.among e (List.mem_cons_of_mem d (List.mem_append_right _ he))

/-- The computation has a result from some fuel on. -/
def Settles {α : Type*} (g : Nat → Option α) (r : α) : Prop :=
  ∃ N, ∀ fuel, N ≤ fuel → g fuel = some r

def Recurses (t : DriverInfo σ) (u : Finset Nat) (f : Forest Nat) : Prop :=
  ∀ s p, HangsIn u s p f → ∃ m x, PairRun t u s 0 f.nodes x m ∧
    Settles (fun fuel => localDevdrivPairAttempt t fuel s p) (m, x)

def LoopsRoots (t : DriverInfo σ) (u : Finset Nat) (f : Forest Nat) : Prop :=
  ∀ s n p, HangsIn u s p f → ∃ m x, PairRun t u s n f.nodes x m ∧
    ∃ N, ∀ fuel k, N ≤ fuel → N ≤ k →
      rootLoop t (localDevdrivPairAttempt t k) fuel s n p = some (m, x)

def LoopsBase (t : DriverInfo σ) (u : Finset Nat) (base : Forest Nat) : Prop :=
  ∀ s n q, HangsIn u s q base → ∃ m x, PairRun t u s n [] x m ∧
    ∃ N, ∀ fuel k, N ≤ fuel → N ≤ k →
      kidLoop t (localDevdrivPairAttempt t k) fuel s n q 0 = some (m, x)

def LoopsKids (t : DriverInfo σ) (u : Finset Nat) (f : Forest Nat) : Prop :=
  ∀ base, LoopsBase t u base → ∀ s n p q, HangsIn u s p f → HangsIn u s q base →
    ∃ m x, PairRun t u s n f.nodes x m ∧
      ∃ N, ∀ fuel k, N ≤ fuel → N ≤ k →
        kidLoop t (localDevdrivPairAttempt t k) fuel s n q p = some (m, x)

theorem LoopsRoots.recurses (h : LoopsRoots t u f) : Recurses t u f := by
  intro s p hs
  obtain ⟨m, x, hrun, N, hloop⟩ := h s 0 p hs
  by_cases hp : p = 0
  · subst hp
    rw [hs.spans.eq_nil]
    refine ⟨0, s, PairRun.refl t u s 0, 1, fun fuel hfuel => ?_⟩
    obtain ⟨fuel, rfl⟩ := Nat.exists_eq_add_of_le' hfuel
    dsimp only
    rw [localDevdrivPairAttempt, if_pos rfl]
  · refine ⟨m, x, hrun, N + 1, fun fuel hfuel => ?_⟩
    obtain ⟨fuel, rfl⟩ := Nat.exists_eq_add_of_le' (Nat.le_trans (Nat.le_add_left 1 N) hfuel)
    dsimp only
    rw [localDevdrivPairAttempt, if_neg hp]
    exact hloop fuel fuel (by omega) (by omega)

theorem loopsBase_cons (hkids : LoopsKids t u siblings) (hbase : LoopsBase t u siblings) :
    LoopsBase t u (.cons d kids siblings) := by
  intro s n q hs
  obtain ⟨rfl, hd, _, _, hsib⟩ := hs.split
  obtain ⟨m, x, hrun, N, hloop⟩ := hkids siblings hbase s n _ _ hsib hsib
  refine ⟨m, x, hrun.mono (List.nil_subset _), N + 1, fun fuel k hfuel hk => ?_⟩
  obtain ⟨fuel, rfl⟩ := Nat.exists_eq_add_of_le' (Nat.le_trans (Nat.le_add_left 1 N) hfuel)
  rw [kidLoop, if_neg (not_not_intro rfl), if_pos hd]
  exact hloop fuel k (by omega) (by omega)

theorem HangsIn.eq_nil (h : HangsIn u s 0 f) : f = .nil := h.spans.eq_nil

theorem siblingCall (hrec : Recurses t u siblings) (hs : HangsIn u s p siblings) (n : Nat) :
    ∃ m x, PairRun t u s n siblings.nodes x m ∧ ∃ N, ∀ k, N ≤ k →
      (p = 0 ∧ m = n ∧ x = s) ∨ (p ≠ 0 ∧
        ∃ c, localDevdrivPairAttempt t k s p = some (c, x) ∧ m = wrap32 (n + c)) := by
  by_cases hp : p = 0
  · subst hp
    rw [hs.eq_nil]
    exact ⟨n, s, PairRun.refl t u s n, 0, fun _ _ => Or.inl ⟨rfl, rfl, rfl⟩⟩
  · obtain ⟨c, x, hrun, N, hcall⟩ := hrec s p hs
    exact ⟨_, x, hrun.add n, N, fun k hk => Or.inr ⟨hp, c, hcall k hk, rfl⟩⟩

theorem HangsIn.visit (hs : HangsIn u s p (.cons d kids siblings)) (t : DriverInfo σ) (n : Nat) :
    ∃ n₁ x₁, pairOne t s n p = (n₁, x₁) ∧ PairRun t u s n [p] x₁ n₁ ∧
      HangsIn u x₁ (x₁.devices p).p1stKid kids ∧
      HangsIn u x₁ (x₁.devices p).pNxtSib siblings := by
  obtain ⟨rfl, hd, hmem, _, _⟩ := hs.split
  have hone := pairOne_spec (t := t) (s := s) (n := n) hmem
  obtain ⟨_, _, _, hkid, hsib⟩ := (hs.run hone).split
  exact ⟨_, _, rfl, hone, hkid, hsib⟩

theorem loopsKids_cons (hrec : Recurses t u siblings) (hkids : LoopsKids t u kids) :
    LoopsKids t u (.cons d kids siblings) := by
  intro base hbase s n p q hs hq
  obtain ⟨n₁, x₁, hr, hone, hkid, hsib⟩ := hs.visit t n
  obtain ⟨rfl, hd, _, _, _⟩ := hs.split
  obtain ⟨n₂, x₂, hsibs, N₂, hcall⟩ := siblingCall hrec hsib n₁
  have hkid₂ := (hkid.run hsibs)
  obtain ⟨m, x, hrest, N, hloop⟩ := hkids base hbase x₂ n₂ _ q hkid₂ ((hq.run hone).run hsibs)
  refine ⟨m, x, ((hone.trans hsibs).trans hrest).mono fun e he => ?_, max N N₂ + 1,
    fun fuel k hfuel hk => ?_⟩
  · simp only [Forest.nodes_cons, List.mem_cons, List.mem_append] at he ⊢
    tauto
  · obtain ⟨fuel, rfl⟩ := Nat.exists_eq_add_of_le' (Nat.le_trans (Nat.le_add_left 1 _) hfuel)
    have hlink : (x₂.devices p).p1stKid = (x₁.devices p).p1stKid := (hsibs.links p).1
    have hrest := hloop fuel k (by omega) (by omega)
    rw [kidLoop, if_pos hd, hr]
    dsimp only
    obtain ⟨hnone, rfl, rfl⟩ | ⟨hsome, c, hc, rfl⟩ := hcall k (by omega)
    · rw [if_neg (not_not_intro hnone)]
      exact hrest
    · rw [if_pos hsome, hc]
      dsimp only
      rw [hlink]
      exact hrest

theorem loopsRoots_cons (hkids : LoopsKids t u kids) (hbase : LoopsBase t u kids)
    (hroots : LoopsRoots t u siblings) : LoopsRoots t u (.cons d kids siblings) := by
  intro s n p hs
  obtain ⟨n₁, x₁, hr, hone, hkid, hsib⟩ := hs.visit t n
  obtain ⟨rfl, hd, _, _, _⟩ := hs.split
  obtain ⟨n₂, x₂, hinner, N₂, hkidLoop⟩ := hkids kids hbase x₁ n₁ _ _ hkid hkid
  obtain ⟨m, x, hrest, N, hloop⟩ := hroots x₂ n₂ _ (hsib.run hinner)
  refine ⟨m, x, ((hone.trans hinner).trans hrest).mono fun e he => ?_, max N N₂ + 1,
    fun fuel k hfuel hk => ?_⟩
  · simp only [Forest.nodes_cons, List.mem_cons, List.mem_append] at he ⊢
    tauto
  · obtain ⟨fuel, rfl⟩ := Nat.exists_eq_add_of_le' (Nat.le_trans (Nat.le_add_left 1 _) hfuel)
    have hlink : (x₂.devices p).pNxtSib = (x₁.devices p).pNxtSib := (hinner.links p).2
    rw [rootLoop, if_neg hd, hr]
    dsimp only
    rw [hkidLoop fuel k (by omega) (by omega)]
    dsimp only
    rw [hlink]
    exact hloop fuel k (by omega) (by omega)

/-- By induction on the forest: each loop ends on it if all do on its parts. -/
theorem loops_end (t : DriverInfo σ) (u : Finset Nat) (f : Forest Nat) :
    LoopsKids t u f ∧ LoopsBase t u f ∧ LoopsRoots t u f := by
  induction f with
  | nil =>
    refine ⟨fun base hbase s n p q hs hq => ?_, fun s n q hs => ?_, fun s n p hs => ?_⟩
    · obtain rfl : p = 0 := hs.spans
      exact hbase s n q hq
    · obtain rfl : q = 0 := hs.spans
      refine ⟨n, s, PairRun.refl t u s n, 1, fun fuel k hfuel _ => ?_⟩
      obtain ⟨fuel, rfl⟩ := Nat.exists_eq_add_of_le' hfuel
      rw [kidLoop, if_neg (not_not_intro rfl), if_neg (not_not_intro rfl)]
    · obtain rfl : p = 0 := hs.spans
      refine ⟨n, s, PairRun.refl t u s n, 1, fun fuel k hfuel _ => ?_⟩
      obtain ⟨fuel, rfl⟩ := Nat.exists_eq_add_of_le' hfuel
      rw [rootLoop, if_pos rfl]
  | cons d kids siblings ihk ihs =>
    exact ⟨loopsKids_cons ihs.2.2.recurses ihk.1, loopsBase_cons ihs.1 ihs.2.1,
      loopsRoots_cons ihk.1 ihk.2.1 ihs.2.2⟩

/-- The walk ends, has offered each device that was unbound, and returns how many it bound; no
other device changes. -/
theorem globalDevdrivPairAttempt_pairs (img : DeviceImage) (t : DriverInfo σ) (s : PairState σ)
    (f : Forest Nat) (h : Spans (kidIn s) (sibIn s) 0 (getSystemRootDevice img) f) :
    ∃ nrPaired x, Settles (fun fuel => globalDevdrivPairAttempt img t fuel s) (nrPaired, x) ∧
      (∀ d ∈ f.nodes, ownerOf s d = 0 → Offered t x d) ∧
      (∀ d ∉ f.nodes, x.devices d = s.devices d) ∧
      nrPaired = wrap32 (newlyBound f.nodes.toFinset s x).card ∧
      (f.nodes.length < 2 ^ 32 → nrPaired = (newlyBound f.nodes.toFinset s x).card) := by
  have hs : HangsIn f.nodes.toFinset s (getSystemRootDevice img) f :=
    ⟨h, fun d hd => List.mem_toFinset.mpr hd⟩
  obtain ⟨m, x, hrun, hend⟩ := (loops_end t f.nodes.toFinset f).2.2.recurses s _ hs
  have hcount := hrun.count (by decide)
  rw [Nat.zero_add] at hcount
  refine ⟨m, x, hend, hrun.offered, fun d hd => hrun.outside d fun hmem => ?_, hcount,
    fun hsmall => ?_⟩
  · exact hd (List.mem_toFinset.mp hmem)
  · have hle : (newlyBound f.nodes.toFinset s x).card ≤ f.nodes.length :=
      le_trans (Finset.card_filter_le _ _) (List.toFinset_card_le _)
    rw [hcount, wrap32_of_lt (lt_of_le_of_lt hle hsmall)]

def smallTree : PairState Unit where
  devices := fun p =>
    if p = 1024 then { zeroDevice with onBus := .BUS_ROOT, p1stKid := 2048 }
    else if p = 2048 then
      { zeroDevice with onBus := .BUS_PCI, pParent := 1024, p1stKid := 4096, pNxtSib := 3072 }
    else if p = 3072 then { zeroDevice with onBus := .BUS_PCI, pParent := 1024 }
    else if p = 4096 then { zeroDevice with onBus := .BUS_PCI, pParent := 2048 }
    else zeroDevice
  world := ()
  tries := []

def anyPciDriver : DriverInfo Unit where
  drivers := fun _ =>
    { pMatchMethods := some
        ⟨[⟨.BUS_PCI, ⟨0, 0xFFFF, 0xFFFF, 0xFF, 0xFF, 0xFF, 0xFF, 0xFF, 0xFF⟩⟩], by simp⟩
      devProbe := some fun w _ _ _ => (true, w)
      devInit := some fun w _ _ => (true, w) }
  pTable := [512]

def smallForest : Forest Nat :=
  .cons 1024 (.cons 2048 (.cons 4096 .nil .nil) (.cons 3072 .nil .nil)) .nil

theorem smallTree_spans : Spans (kidIn smallTree) (sibIn smallTree) 0 1024 smallForest :=
  ⟨rfl, by decide, ⟨rfl, by decide, ⟨rfl, by decide, rfl, rfl⟩, rfl, by decide, rfl, rfl⟩, rfl⟩

theorem globalDevdrivPairAttempt_pairs_smallTree :
    ∃ nrPaired x, Settles (fun fuel =>
        globalDevdrivPairAttempt ⟨1024, 2048⟩ anyPciDriver fuel smallTree) (nrPaired, x) ∧
      (∀ d ∈ smallForest.nodes, ownerOf smallTree d = 0 → Offered anyPciDriver x d) ∧
      (∀ d ∉ smallForest.nodes, x.devices d = smallTree.devices d) ∧
      nrPaired = wrap32 (newlyBound smallForest.nodes.toFinset smallTree x).card ∧
      (smallForest.nodes.length < 2 ^ 32 →
        nrPaired = (newlyBound smallForest.nodes.toFinset smallTree x).card) :=
  globalDevdrivPairAttempt_pairs ⟨1024, 2048⟩ anyPciDriver smallTree smallForest smallTree_spans

example : (globalDevdrivPairAttempt ⟨1024, 2048⟩ anyPciDriver 8 smallTree).map Prod.fst = some 3 :=
  rfl

end Ych.Devdriv
