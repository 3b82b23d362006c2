import Ych.Base.Runs
import Ych.Devdriv.Pair

/-! The visits of the walk over the device tree: it comes to many nodes several times, and each time
offers the device to all drivers if it is unbound. -/
namespace Ych.Devdriv
open Runs SiblingForest

/-! ### The order of the visits -/

mutual

def rootVisits : Forest Nat → List Nat
  | .nil => []
  | .cons d kids siblings => d :: (baseVisits kids ++ rootVisits siblings)

def baseVisits : Forest Nat → List Nat
  | .nil => []
  | .cons d kids siblings => d :: (rootVisits siblings ++ kidVisits kids) ++ baseVisits siblings

def kidVisits : Forest Nat → List Nat
  | .nil => []
  | .cons d kids siblings => d :: (rootVisits siblings ++ kidVisits kids)

end

/-- What is left once the inner loop has ended. -/
def laterVisits : Forest Nat → List Nat
  | .nil => []
  | .cons _ _ siblings => baseVisits siblings

theorem baseVisits_eq (f : Forest Nat) : baseVisits f = kidVisits f ++ laterVisits f := by
  cases f with
  | nil => rw [baseVisits, kidVisits, laterVisits, List.append_nil]
  | cons d kids siblings => rw [baseVisits, kidVisits, laterVisits]

variable {σ : Type*}

def visit (t : DriverInfo σ) (s : PairState σ) (d : Nat) : PairState σ :=
  (tryPairDeviceWithAnyDriver t s d).2

def visitAll (t : DriverInfo σ) (s : PairState σ) (ds : List Nat) : PairState σ :=
  ds.foldl (visit t) s

variable {t : DriverInfo σ} {s x : PairState σ} {f base kids siblings : Forest Nat}
  {p q d n m k fuel : Nat}

theorem visitAll_cons (t : DriverInfo σ) (s : PairState σ) (d : Nat) (ds : List Nat) :
    visitAll t s (d :: ds) = visitAll t (visit t s d) ds := rfl

theorem visitAll_append (t : DriverInfo σ) (s : PairState σ) (ds es : List Nat) :
    visitAll t s (ds ++ es) = visitAll t (visitAll t s ds) es := List.foldl_append

theorem visit_links (t : DriverInfo σ) (s : PairState σ) (d e : Nat) :
    kidIn (visit t s d) e = kidIn s e ∧ sibIn (visit t s d) e = sibIn s e := by
  have hrun := pairOne_spec (t := t) (s := s) (n := 0) (Finset.mem_singleton_self d)
  exact hrun.links e

theorem visitAll_links (t : DriverInfo σ) (s : PairState σ) (ds : List Nat) (e : Nat) :
    kidIn (visitAll t s ds) e = kidIn s e ∧ sibIn (visitAll t s ds) e = sibIn s e := by
  induction ds generalizing s with
  | nil => exact ⟨rfl, rfl⟩
  | cons d ds ih =>
    obtain ⟨hkid, hsib⟩ := ih (visit t s d)
    obtain ⟨hkid', hsib'⟩ := visit_links t s d e
    exact ⟨hkid.trans hkid', hsib.trans hsib'⟩

abbrev Hangs (s : PairState σ) (p : Nat) (f : Forest Nat) : Prop :=
  Spans (kidIn s) (sibIn s) 0 p f

theorem hangs_visitAll (h : Hangs s p f) (ds : List Nat) : Hangs (visitAll t s ds) p f :=
  h.congr (fun e _ => (visitAll_links t s ds e).1) fun e _ => (visitAll_links t s ds e).2

theorem Hangs.split (h : Hangs s p (.cons d kids siblings)) (ds : List Nat) :
    Hangs (visitAll t s ds) (kidIn (visitAll t s ds) p) kids ∧
      Hangs (visitAll t s ds) (sibIn (visitAll t s ds) p) siblings := by
  obtain ⟨rfl, -, hkid, hsib⟩ := h
  rw [(visitAll_links t s ds p).1, (visitAll_links t s ds p).2]
  exact ⟨hangs_visitAll hkid ds, hangs_visitAll hsib ds⟩

def Visits (t : DriverInfo σ) (recurse : PairState σ → Nat → Option (Nat × PairState σ)) : Prop :=
  ∀ s p f m x, Hangs s p f → recurse s p = some (m, x) → x = visitAll t s (rootVisits f)

theorem kidLoop_visits {recurse : PairState σ → Nat → Option (Nat × PairState σ)}
    (hrec : Visits t recurse) (hp : Hangs s p f) (hq : Hangs s q base)
    (h : kidLoop t recurse fuel s n q p = some (m, x)) :
    x = visitAll t s (kidVisits f ++ laterVisits base) := by
  induction fuel generalizing s n p q f base with
  | zero => exact absurd h (by simp [kidLoop])
  | succ fuel ih =>
    cases f with
    | nil =>
      obtain rfl : p = 0 := hp
      rw [kidLoop, if_neg (not_not_intro rfl)] at h
      cases base with
      | nil =>
        obtain rfl : q = 0 := hq
        rw [if_neg (not_not_intro rfl)] at h
        exact (Prod.mk.inj (Option.some.inj h)).2.symm
      | cons d kids siblings =>
        obtain ⟨rfl, hd, -, hsib⟩ := hq
        rw [if_pos hd] at h
        rw [kidVisits, List.nil_append, laterVisits, baseVisits_eq]
        exact ih hsib hsib h
    | cons d kids siblings =>
      obtain ⟨hkid, hsib⟩ := hp.split (t := t) [p]
      obtain ⟨rfl, hd, -, -⟩ := id hp
      have hone : (pairOne t s n p).2 = visit t s p := rfl
      rw [kidLoop, if_pos hd] at h
      generalize pairOne t s n p = one at h hone
      obtain ⟨n₁, x₁⟩ := one
      dsimp only at h hone
      subst hone
      change Hangs (visit t s p) (sibIn (visit t s p) p) siblings at hsib
      rw [kidVisits, List.cons_append, visitAll_cons, List.append_assoc, visitAll_append]
      by_cases hnone : ((visit t s p).devices p).pNxtSib = 0
      · rw [if_neg (not_not_intro hnone)] at h
        rw [sibIn, hnone] at hsib
        rw [Spans.eq_nil hsib]
        exact ih hkid (hangs_visitAll hq [p]) h
      · rw [if_pos hnone] at h
        split at h
        · cases h
        · rename_i c x₂ hcall
          obtain rfl := hrec _ _ _ _ _ hsib hcall
          exact ih (hp.split (p :: rootVisits siblings)).1 (hangs_visitAll hq (p :: _)) h

theorem rootLoop_visits {recurse : PairState σ → Nat → Option (Nat × PairState σ)}
    (hrec : Visits t recurse) (hp : Hangs s p f)
    (h : rootLoop t recurse fuel s n p = some (m, x)) : x = visitAll t s (rootVisits f) := by
  induction fuel generalizing s n p f with
  | zero => exact absurd h (by simp [rootLoop])
  | succ fuel ih =>
    cases f with
    | nil =>
      obtain rfl : p = 0 := hp
      rw [rootLoop, if_pos rfl] at h
      exact (Prod.mk.inj (Option.some.inj h)).2.symm
    | cons d kids siblings =>
      obtain ⟨hkid, -⟩ := hp.split (t := t) [p]
      obtain ⟨rfl, hd, -, -⟩ := id hp
      have hone : (pairOne t s n p).2 = visit t s p := rfl
      rw [rootLoop, if_neg hd] at h
      generalize pairOne t s n p = one at h hone
      obtain ⟨n₁, x₁⟩ := one
      dsimp only at h hone
      subst hone
      rw [rootVisits, visitAll_cons, visitAll_append, baseVisits_eq]
      split at h
      · cases h
      · rename_i c x₂ hloop
        obtain rfl := kidLoop_visits hrec hkid hkid hloop
        exact ih (hp.split (p :: (kidVisits kids ++ laterVisits kids))).2 h

theorem localDevdrivPairAttempt_visits (t : DriverInfo σ) (fuel : Nat) :
    Visits t (localDevdrivPairAttempt t fuel) := by
  induction fuel with
  | zero =>
    intro s p f m x _ h
    exact absurd h (by simp [localDevdrivPairAttempt])
  | succ fuel ih =>
    intro s p f m x hp h
    rw [localDevdrivPairAttempt] at h
    split at h
    · rename_i hnull
      subst hnull
      rw [Spans.eq_nil hp]
      exact (Prod.mk.inj (Option.some.inj h)).2.symm
    · exact rootLoop_visits ih hp h

/-! ### The calls of `DevProbe` -/

abbrev Probe := Nat × Nat

def recordingProbe (devProbe : σ → (Nat → DeviceNode) → Nat → DriverMatchMethod → Bool × σ)
    (p : Nat) (w : σ × List Probe) (devices : Nat → DeviceNode) (d : Nat)
    (method : DriverMatchMethod) : Bool × σ × List Probe :=
  let (found, world) := devProbe w.1 devices d method
  (found, world, (p, d) :: w.2)

def recordingInit (devInit : σ → (Nat → DeviceNode) → Nat → Bool × σ) (w : σ × List Probe)
    (devices : Nat → DeviceNode) (d : Nat) : Bool × σ × List Probe :=
  let (ready, world) := devInit w.1 devices d
  (ready, world, w.2)

/-- Drivers that do as before, and put each call of `DevProbe` on record. -/
def recording (t : DriverInfo σ) : DriverInfo (σ × List Probe) where
  drivers := fun pDriver =>
    { pMatchMethods := (t.drivers pDriver).pMatchMethods
      devProbe := (t.drivers pDriver).devProbe.map fun devProbe => recordingProbe devProbe pDriver
      devInit := (t.drivers pDriver).devInit.map recordingInit }
  pTable := t.pTable

def PairState.unrecorded (s : PairState σ) : PairState (σ × List Probe) :=
  { devices := s.devices, world := (s.world, []), tries := s.tries }

def PairState.forget (s : PairState (σ × List Probe)) : PairState σ :=
  { devices := s.devices, world := s.world.1, tries := s.tries }

def PairState.probes (s : PairState (σ × List Probe)) : List Probe := s.world.2

def wouldProbe (t : DriverInfo σ) (device : DeviceNode) (pDriver : Nat) : Bool :=
  pDriver ≠ 0 && (t.drivers pDriver).devInit.isSome && (t.drivers pDriver).devProbe.isSome &&
    (isDriverCompatibleWithDevice (t.drivers pDriver) device).isSome

def PairState.tried (s : PairState σ) (p d : Nat) : PairState σ :=
  { s with tries := ⟨p, d, ownerOf s d⟩ :: s.tries }

theorem wouldProbe_iff {device : DeviceNode} : wouldProbe t device p = true ↔
    p ≠ 0 ∧ (∃ devInit, (t.drivers p).devInit = some devInit) ∧
      (∃ devProbe, (t.drivers p).devProbe = some devProbe) ∧
      ∃ method, isDriverCompatibleWithDevice (t.drivers p) device = some method := by
  simp only [wouldProbe, Bool.and_eq_true, decide_eq_true_eq, Option.isSome_iff_exists, and_assoc]

theorem tryPairDriverWithDevice_skips
    (h : ¬(ownerOf s d = 0 ∧ wouldProbe t (s.devices d) p = true)) :
    tryPairDriverWithDevice t s p d = (false, s.tried p d) := by
  rw [wouldProbe_iff] at h
  unfold tryPairDriverWithDevice
  dsimp only
  split
  · rfl
  · rename_i hguard
    obtain ⟨hp, hguard⟩ := not_or.mp hguard
    obtain ⟨_, hfree⟩ := not_or.mp hguard
    split
    · rename_i devInit devProbe hinit hprobe
      split
      · rfl
      · rename_i method hmethod
        exact absurd ⟨not_not.mp hfree, hp, ⟨_, hinit⟩, ⟨_, hprobe⟩, _, hmethod⟩ h
    · rfl

def probeAndInit (devProbe : σ → (Nat → DeviceNode) → Nat → DriverMatchMethod → Bool × σ)
    (devInit : σ → (Nat → DeviceNode) → Nat → Bool × σ) (method : DriverMatchMethod)
    (s : PairState σ) (p d : Nat) : Bool × PairState σ :=
  match devProbe s.world s.devices d method with
  | (false, world) => (false, { s with world := world })
  | (true, world) =>
    match devInit world (s.bind d p).devices d with
    | (false, world) => (false, { (s.bind d p).bind d 0 with world := world })
    | (true, world) => (true, { s.bind d p with world := world })

theorem tryPairDriverWithDevice_probes {devProbe devInit} {method : DriverMatchMethod}
    (hd : d ≠ 0) (hfree : ownerOf s d = 0) (hp : p ≠ 0)
    (hinit : (t.drivers p).devInit = some devInit)
    (hprobe : (t.drivers p).devProbe = some devProbe)
    (hmethod : isDriverCompatibleWithDevice (t.drivers p) (s.devices d) = some method) :
    tryPairDriverWithDevice t s p d = probeAndInit devProbe devInit method (s.tried p d) p d := by
  have hready : ¬(p = 0 ∨ d = 0 ∨ (s.devices d).pDriver ≠ 0) :=
    not_or.mpr ⟨hp, not_or.mpr ⟨hd, not_not_intro hfree⟩⟩
  unfold tryPairDriverWithDevice probeAndInit
  dsimp only
  rw [if_neg hready, hinit, hprobe]
  dsimp only
  rw [hmethod]
  dsimp only [PairState.tried]
  generalize devProbe s.world s.devices d method = found
  obtain ⟨b, world⟩ := found
  cases b with
  | false => rfl
  | true =>
    have hready : ∀ ready : Bool × σ,
        (if ready.1 = false then
            (false, ({ s.bind d p with world := ready.2, tries := (s.tried p d).tries } :
              PairState σ).bind d 0)
          else (true, { s.bind d p with world := ready.2, tries := (s.tried p d).tries })) =
        match ready with
        | (false, world) => (false, { ((s.tried p d).bind d p).bind d 0 with world := world })
        | (true, world) => (true, { (s.tried p d).bind d p with world := world }) := by
      rintro ⟨b, w⟩
      cases b with
      | false => rfl
      | true => rfl
    exact hready _

variable {y : PairState (σ × List Probe)}

theorem probeAndInit_records {devProbe} {devInit} (method : DriverMatchMethod)
    (y : PairState (σ × List Probe)) (p d : Nat) :
    let r := probeAndInit (recordingProbe devProbe p) (recordingInit devInit) method y p d
    probeAndInit devProbe devInit method y.forget p d = (r.1, r.2.forget) ∧
      r.2.probes = (p, d) :: y.probes := by
  unfold probeAndInit recordingProbe recordingInit
  dsimp only [PairState.forget]
  generalize devProbe y.world.1 y.devices d method = found
  obtain ⟨b, world⟩ := found
  cases b with
  | false => exact ⟨rfl, rfl⟩
  | true =>
    dsimp only [PairState.bind]
    generalize devInit world _ d = ready
    obtain ⟨b, world⟩ := ready
    cases b with
    | false => exact ⟨rfl, rfl⟩
    | true => exact ⟨rfl, rfl⟩

theorem tryPairDriverWithDevice_records (hd : d ≠ 0) (hfree : ownerOf y d = 0)
    (h : wouldProbe t (y.devices d) p = true) :
    let r := tryPairDriverWithDevice (recording t) y p d
    tryPairDriverWithDevice t y.forget p d = (r.1, r.2.forget) ∧
      r.2.probes = (p, d) :: y.probes := by
  obtain ⟨hp, ⟨devInit, hinit⟩, ⟨devProbe, hprobe⟩, method, hmethod⟩ := wouldProbe_iff.mp h
  have hinit' : ((recording t).drivers p).devInit = some (recordingInit devInit) :=
    congrArg (Option.map recordingInit) hinit
  have hprobe' : ((recording t).drivers p).devProbe = some (recordingProbe devProbe p) :=
    congrArg (Option.map fun devProbe => recordingProbe devProbe p) hprobe
  have hmethod' : isDriverCompatibleWithDevice ((recording t).drivers p) (y.devices d) =
      some method := hmethod
  rw [tryPairDriverWithDevice_probes (s := y.forget) hd hfree hp hinit hprobe hmethod,
    tryPairDriverWithDevice_probes hd hfree hp hinit' hprobe' hmethod']
  exact probeAndInit_records method (y.tried p d) p d

theorem wouldProbe_recording (t : DriverInfo σ) (device : DeviceNode) (p : Nat) :
    wouldProbe (recording t) device p = wouldProbe t device p := by
  have hcompatible : isDriverCompatibleWithDevice ((recording t).drivers p) device =
      isDriverCompatibleWithDevice (t.drivers p) device := rfl
  unfold wouldProbe
  rw [hcompatible]
  simp only [recording, Option.isSome_map]

def fits (t : DriverInfo σ) (device : DeviceNode) (p : Nat) : Bool :=
  device.pDriver = 0 && wouldProbe t device p

theorem fits_iff {device : DeviceNode} :
    fits t device p = true ↔ device.pDriver = 0 ∧ wouldProbe t device p = true := by
  rw [fits, Bool.and_eq_true, decide_eq_true_eq]

/-- What offering `d` to the drivers of a table does to the record: it grows by the calls of those
that fit, up to the one that takes the device. -/
structure Records (t : DriverInfo σ) (table : List Nat) (y : PairState (σ × List Probe)) (d : Nat)
    (r : Bool × PairState (σ × List Probe)) : Prop where
  forget : tryDrivers t d table y.forget = (r.1, r.2.forget)
  probes : ∃ tried rest, table = tried ++ rest ∧
    r.2.probes = ((tried.filter (fits t (y.devices d))).map (·, d)).reverse ++ y.probes ∧
    (r.1 = false → rest = []) ∧ (r.1 = true → ∃ p ∈ tried, fits t (y.devices d) p = true)

theorem tryDrivers_records (t : DriverInfo σ) (hd : d ≠ 0) (table : List Nat)
    (y : PairState (σ × List Probe)) :
    Records t table y d (tryDrivers (recording t) d table y) := by
  induction table generalizing y with
  | nil => exact ⟨rfl, [], [], rfl, rfl, fun _ => rfl, Bool.noConfusion⟩
  | cons p table ih =>
    rw [tryDrivers]
    by_cases hfit : ownerOf y d = 0 ∧ wouldProbe t (y.devices d) p = true
    · have hspec := (tryPairDriverWithDevice_spec (recording t) y p d).2.2
      obtain ⟨hforget, hprobes⟩ := tryPairDriverWithDevice_records hd hfit.1 hfit.2
      generalize tryPairDriverWithDevice (recording t) y p d = r at hforget hprobes hspec
      obtain ⟨b, x⟩ := r
      have hone : [p].filter (fits t (y.devices d)) = [p] :=
        List.filter_cons_of_pos (fits_iff.mpr hfit)
      cases b with
      | true =>
        refine ⟨by rw [tryDrivers, hforget], [p], table, rfl, ?_, Bool.noConfusion,
          fun _ => ⟨p, List.mem_singleton_self p, fits_iff.mpr hfit⟩⟩
        rw [hone]
        exact hprobes
      | false =>
        have hsame : x.devices = y.devices := hspec rfl
        obtain ⟨hforget', tried, rest, htable, hprobes', hfalse, htrue⟩ := ih x
        rw [hsame] at hprobes' htrue
        refine ⟨by rw [tryDrivers, hforget]; exact hforget', p :: tried, rest,
          congrArg (p :: ·) htable, ?_, hfalse, fun hb => ?_⟩
        · rw [List.filter_cons_of_pos (fits_iff.mpr hfit), List.map_cons, List.reverse_cons,
            List.append_assoc]
          exact hprobes'.trans (congrArg _ hprobes)
        · obtain ⟨q, hq, hfits⟩ := htrue hb
          exact ⟨q, List.mem_cons_of_mem p hq, hfits⟩
    · have hskip := tryPairDriverWithDevice_skips (t := recording t)
        ((wouldProbe_recording t (y.devices d) p).symm ▸ hfit)
      have hskip' : tryPairDriverWithDevice t y.forget p d = (false, y.forget.tried p d) :=
        tryPairDriverWithDevice_skips hfit
      rw [hskip]
      obtain ⟨hforget, tried, rest, htable, hprobes, hfalse, htrue⟩ := ih (y.tried p d)
      refine ⟨by rw [tryDrivers, hskip']; exact hforget, p :: tried, rest,
        congrArg (p :: ·) htable, ?_, hfalse, fun hb => ?_⟩
      · rw [List.filter_cons_of_neg (fun h => hfit (fits_iff.mp h))]
        exact hprobes
      · obtain ⟨q, hq, hfits⟩ := htrue hb
        exact ⟨q, List.mem_cons_of_mem p hq, hfits⟩

/-! ### The record of the walk -/

theorem visit_forget (t : DriverInfo σ) (hd : d ≠ 0) (y : PairState (σ × List Probe)) :
    visit t y.forget d = (visit (recording t) y d).forget :=
  congrArg Prod.snd (tryDrivers_records t hd t.pTable y).forget

theorem visitAll_forget (t : DriverInfo σ) (y : PairState (σ × List Probe)) {ds : List Nat}
    (hds : ∀ d ∈ ds, d ≠ 0) : visitAll t y.forget ds = (visitAll (recording t) y ds).forget := by
  induction ds generalizing y with
  | nil => rfl
  | cons d ds ih =>
    obtain ⟨hd, hrest⟩ := List.forall_mem_cons.mp hds
    rw [visitAll_cons, visitAll_cons, visit_forget t hd, ih _ hrest]

theorem visit_fits (t : DriverInfo σ) (y : PairState (σ × List Probe)) {e : Nat}
    (hfits : fits t ((visit (recording t) y d).devices e) p = true) :
    fits t (y.devices e) p = true ∧
      (e = d → (tryPairDeviceWithAnyDriver (recording t) y d).1 = false) := by
  have htried := tryDrivers_spec (recording t) d t.pTable y
  change TriedAll y d t.pTable (tryPairDeviceWithAnyDriver (recording t) y d).1
    (visit (recording t) y d) at htried
  cases hb : (tryPairDeviceWithAnyDriver (recording t) y d).1 with
  | false => exact ⟨(htried.refused hb).1 ▸ hfits, fun _ => rfl⟩
  | true =>
    obtain ⟨_, q, _, _, ⟨_, hq, hdevices⟩, _⟩ := htried.taken hb
    rw [hdevices, bind_devices] at hfits
    by_cases he : e = d
    · rw [if_pos he] at hfits
      exact absurd (fits_iff.mp hfits).1 hq
    · rw [if_neg he] at hfits
      exact ⟨hfits, fun heq => absurd heq he⟩

/-- The record of a walk that has come to the devices in `seen`: no call is on it twice, and the
calls of a device that is still unbound are all on it. -/
structure Recalled (t : DriverInfo σ) (seen : List Nat) (y : PairState (σ × List Probe)) :
    Prop where
  once : y.probes.Nodup
  visited : ∀ c ∈ y.probes, c.2 ∈ seen
  refused : ∀ d ∈ seen, ∀ p ∈ t.pTable, fits t (y.devices d) p = true → (p, d) ∈ y.probes

variable {seen ds : List Nat}

theorem visit_probes (t : DriverInfo σ) (hd : d ≠ 0) (y : PairState (σ × List Probe)) :
    ∃ new : List Nat, new.Sublist t.pTable ∧ (∀ p ∈ new, fits t (y.devices d) p = true) ∧
      (visit (recording t) y d).probes = (new.map (·, d)).reverse ++ y.probes ∧
      ((tryPairDeviceWithAnyDriver (recording t) y d).1 = false →
        ∀ p ∈ t.pTable, fits t (y.devices d) p = true → p ∈ new) ∧
      ((tryPairDeviceWithAnyDriver (recording t) y d).1 = true → new ≠ []) := by
  obtain ⟨-, tried, rest, htable, hprobes, hfalse, htrue⟩ := tryDrivers_records t hd t.pTable y
  refine ⟨tried.filter (fits t (y.devices d)), ?_, fun p hp => (List.mem_filter.mp hp).2,
    hprobes, fun hb p hp hfits => ?_, fun hb => ?_⟩
  · exact List.filter_sublist.trans (htable ▸ List.sublist_append_left tried rest)
  · rw [htable, hfalse hb, List.append_nil] at hp
    exact List.mem_filter.mpr ⟨hp, hfits⟩
  · obtain ⟨p, hp, hfits⟩ := htrue hb
    exact List.ne_nil_of_mem (List.mem_filter.mpr ⟨hp, hfits⟩)

/-- The walk does not come to the device again, or no driver is probed if it does. -/
def Fresh (t : DriverInfo σ) (s : PairState σ × List Nat) (d : Nat) : Prop :=
  d ∈ s.2 → ownerOf s.1 d ≠ 0 ∨ ∀ p ∈ t.pTable, wouldProbe t (s.1.devices d) p = false

theorem fresh_iff : Fresh t (y.forget, seen) d ↔
    (d ∈ seen → ∀ p ∈ t.pTable, fits t (y.devices d) p = false) := by
  refine imp_congr_right fun _ => ⟨fun h p hp => ?_, fun h => ?_⟩
  · rw [Bool.eq_false_iff, Ne, fits_iff, not_and_or]
    exact h.imp id fun h => Bool.eq_false_iff.mp (h p hp)
  · by_cases howner : ownerOf y d = 0
    · refine Or.inr fun p hp => ?_
      have hno := Bool.eq_false_iff.mp (h p hp)
      exact Bool.eq_false_iff.mpr fun hprobe => hno (fits_iff.mpr ⟨howner, hprobe⟩)
    · exact Or.inl howner

theorem Recalled.keep (h : Recalled t seen y) (ht : t.pTable.Nodup) (hd : d ≠ 0)
    (hfresh : Fresh t (y.forget, seen) d) : Recalled t (d :: seen) (visit (recording t) y d) := by
  obtain ⟨new, hsub, hfits, hprobes, hfalse, -⟩ := visit_probes t hd y
  rw [fresh_iff] at hfresh
  refine ⟨?_, fun c hc => ?_, fun e he p hp hfit => ?_⟩
  · rw [hprobes]
    refine List.nodup_append'.mpr ⟨?_, h.once, fun c hnew hold => ?_⟩
    · rw [List.nodup_reverse]
      exact (hsub.nodup ht).map fun p q hpq => (Prod.mk.inj hpq).1
    · obtain ⟨p, hp, rfl⟩ := List.mem_map.mp (List.mem_reverse.mp hnew)
      have hno := hfresh (h.visited _ hold) p (hsub.subset hp)
      exact Bool.false_ne_true (hno.symm.trans (hfits p hp))
  · rw [hprobes] at hc
    cases List.mem_append.mp hc with
    | inl hnew =>
      obtain ⟨p, -, rfl⟩ := List.mem_map.mp (List.mem_reverse.mp hnew)
      exact List.mem_cons_self
    | inr hold => exact List.mem_cons_of_mem d (h.visited c hold)
  · obtain ⟨hbefore, hsame⟩ := visit_fits t y hfit
    rw [hprobes]
    cases List.mem_cons.mp he with
    | inl heq =>
      subst heq
      have hnew := hfalse (hsame rfl) p hp hbefore
      exact List.mem_append_left _ (List.mem_reverse.mpr (List.mem_map_of_mem hnew))
    | inr hseen => exact List.mem_append_right _ (h.refused e hseen p hp hbefore)

theorem Recalled.again (h : Recalled t seen y) (hd : d ≠ 0)
    (hfresh : ¬Fresh t (y.forget, seen) d) : ¬(visit (recording t) y d).probes.Nodup := by
  obtain ⟨new, hsub, hfits, hprobes, hfalse, htrue⟩ := visit_probes t hd y
  rw [fresh_iff] at hfresh
  simp only [Classical.not_imp, not_forall] at hfresh
  obtain ⟨hseen, q, hq, hfit⟩ := hfresh
  obtain ⟨p, hp⟩ : ∃ p, p ∈ new := by
    cases hb : (tryPairDeviceWithAnyDriver (recording t) y d).1 with
    | false => exact ⟨q, hfalse hb q hq (Bool.eq_true_of_not_eq_false hfit)⟩
    | true => exact List.exists_mem_of_ne_nil new (htrue hb)
  have hold := h.refused d hseen p (hsub.subset hp) (hfits p hp)
  rw [hprobes]
  intro hnodup
  exact List.disjoint_of_nodup_append hnodup
    (List.mem_reverse.mpr (List.mem_map_of_mem hp)) hold

theorem visitAll_probes (t : DriverInfo σ) (y : PairState (σ × List Probe))
    (hds : ∀ d ∈ ds, d ≠ 0) :
    ∃ new, (visitAll (recording t) y ds).probes = new ++ y.probes := by
  induction ds generalizing y with
  | nil => exact ⟨[], rfl⟩
  | cons d ds ih =>
    obtain ⟨hd, hrest⟩ := List.forall_mem_cons.mp hds
    obtain ⟨new, -, -, hprobes, -⟩ := visit_probes t hd y
    obtain ⟨more, hmore⟩ := ih (visit (recording t) y d) hrest
    rw [visitAll_cons, hmore, hprobes, ← List.append_assoc]
    exact ⟨_, rfl⟩

def visitStep (t : DriverInfo σ) (s : PairState σ × List Nat) (d : Nat) :
    Option (PairState σ × List Nat) := some (visit t s.1 d, d :: s.2)

/-- By induction on the visits: a call made twice stays on the record twice. -/
theorem Recalled.nodup_iff (h : Recalled t seen y) (ht : t.pTable.Nodup)
    (hds : ∀ d ∈ ds, d ≠ 0) : (visitAll (recording t) y ds).probes.Nodup ↔
      EachStep (visitStep t) (Fresh t) (y.forget, seen) ds := by
  induction ds generalizing y seen with
  | nil => exact iff_of_true h.once eachStep_nil
  | cons d ds ih =>
    obtain ⟨hd, hrest⟩ := List.forall_mem_cons.mp hds
    have hstep : visitStep t (y.forget, seen) d =
        some ((visit (recording t) y d).forget, d :: seen) := by
      rw [visitStep, visit_forget t hd]
    rw [visitAll_cons, eachStep_cons]
    by_cases hfresh : Fresh t (y.forget, seen) d
    · rw [ih (h.keep ht hd hfresh) hrest]
      constructor
      · rintro hsteps u hu
        obtain rfl := Option.some.inj (hstep.symm.trans hu)
        exact ⟨hfresh, hsteps⟩
      · exact fun hsteps => (hsteps _ hstep).2
    · refine iff_of_false (fun hnodup => ?_) fun hsteps => hfresh (hsteps _ hstep).1
      obtain ⟨new, hnew⟩ := visitAll_probes t (visit (recording t) y d) hrest
      rw [hnew] at hnodup
      exact h.again hd hfresh (hnodup.of_append_right)

theorem visits_subset (f : Forest Nat) :
    rootVisits f ⊆ f.nodes ∧ baseVisits f ⊆ f.nodes ∧ kidVisits f ⊆ f.nodes := by
  induction f with
  | nil =>
    rw [rootVisits, baseVisits, kidVisits]
    exact ⟨List.nil_subset _, List.nil_subset _, List.nil_subset _⟩
  | cons d kids siblings ihk ihs =>
    obtain ⟨-, hbase, hkid⟩ := ihk
    obtain ⟨hroots, hbases, -⟩ := ihs
    have hkids : d :: (rootVisits siblings ++ kidVisits kids) ⊆
        d :: (kids.nodes ++ siblings.nodes) :=
      List.cons_subset_cons d (List.append_subset.mpr
        ⟨List.subset_append_of_subset_right _ hroots, List.subset_append_of_subset_left _ hkid⟩)
    rw [rootVisits, baseVisits, kidVisits, Forest.nodes_cons]
    refine ⟨List.cons_subset_cons d (List.append_subset.mpr
      ⟨List.subset_append_of_subset_left _ hbase, List.subset_append_of_subset_right _ hroots⟩),
      List.append_subset.mpr ⟨hkids, ?_⟩, hkids⟩
    exact List.subset_cons_of_subset d (List.subset_append_of_subset_right _ hbases)

theorem globalDevdrivPairAttempt_records (img : DeviceImage) (t : DriverInfo σ) (s : PairState σ)
    (h : Hangs s (getSystemRootDevice img) f) : ∃ nrPaired,
      Settles (fun fuel => globalDevdrivPairAttempt img t fuel s)
        (nrPaired, (visitAll (recording t) s.unrecorded (rootVisits f)).forget) ∧
      Settles (fun fuel => globalDevdrivPairAttempt img (recording t) fuel s.unrecorded)
        (nrPaired, visitAll (recording t) s.unrecorded (rootVisits f)) := by
  have hds : ∀ d ∈ rootVisits f, d ≠ 0 := fun d hd => h.ne_null d ((visits_subset f).1 hd)
  have hs : HangsIn f.nodes.toFinset s (getSystemRootDevice img) f :=
    ⟨h, fun d hd => List.mem_toFinset.mpr hd⟩
  have hy : HangsIn f.nodes.toFinset s.unrecorded (getSystemRootDevice img) f := ⟨h, hs.among⟩
  obtain ⟨m, x, hrun, N, hend⟩ := (loops_end t f.nodes.toFinset f).2.2.recurses s _ hs
  obtain ⟨k, y, hrun', N', hend'⟩ :=
    (loops_end (recording t) f.nodes.toFinset f).2.2.recurses s.unrecorded _ hy
  obtain rfl := localDevdrivPairAttempt_visits t N s _ f m x h (hend N (Nat.le_refl N))
  obtain rfl := localDevdrivPairAttempt_visits (recording t) N' s.unrecorded _ f k y h
    (hend' N' (Nat.le_refl N'))
  have hforget : visitAll t s (rootVisits f) =
      (visitAll (recording t) s.unrecorded (rootVisits f)).forget :=
    visitAll_forget t s.unrecorded hds
  have hcount : m = k := by
    rw [hrun.count (by decide), hrun'.count (by decide), hforget]
    rfl
  refine ⟨m, ⟨N, fun fuel hfuel => ?_⟩, N', fun fuel hfuel => ?_⟩
  · rw [← hforget]
    exact hend fuel hfuel
  · rw [hcount]
    exact hend' fuel hfuel

theorem unrecorded_recalled (t : DriverInfo σ) (s : PairState σ) : Recalled t [] s.unrecorded :=
  ⟨List.nodup_nil, fun _ hc => absurd hc List.not_mem_nil, fun _ hd => absurd hd List.not_mem_nil⟩

theorem eachStep_fresh_cons : EachStep (visitStep t) (Fresh t) (s, seen) (d :: ds) ↔
    Fresh t (s, seen) d ∧ EachStep (visitStep t) (Fresh t) (visit t s d, d :: seen) ds := by
  refine eachStep_cons.trans ⟨fun h => h _ rfl, fun h u hu => ?_⟩
  obtain rfl := Option.some.inj hu
  exact h

/-- A walk that comes to no device twice is fresh throughout. -/
theorem fresh_of_nodup (t : DriverInfo σ) (hds : ds.Nodup) (hseen : ∀ d ∈ ds, d ∉ seen) :
    EachStep (visitStep t) (Fresh t) (s, seen) ds := by
  induction ds generalizing s seen with
  | nil => exact eachStep_nil
  | cons d ds ih =>
    obtain ⟨hnot, hrest⟩ := List.nodup_cons.mp hds
    obtain ⟨hd, hseen⟩ := List.forall_mem_cons.mp hseen
    refine eachStep_fresh_cons.mpr ⟨fun hmem => absurd hmem hd, ?_⟩
    refine ih hrest fun e he hmem => ?_
    obtain rfl | hmem := List.mem_cons.mp hmem
    · exact hnot he
    · exact hseen e he hmem

/-- `DevProbe` is called at most once for each driver and device exactly if no driver is probed when
the walk comes to a device again. -/
theorem probedOnce_iff (img : DeviceImage) (t : DriverInfo σ) (s : PairState σ) (f : Forest Nat)
    (ht : t.pTable.Nodup)
    (h : Spans (kidIn s) (sibIn s) 0 (getSystemRootDevice img) f) :
    ∃ nrPaired x, Settles (fun fuel => globalDevdrivPairAttempt img t fuel s)
        (nrPaired, x.forget) ∧
      Settles (fun fuel => globalDevdrivPairAttempt img (recording t) fuel s.unrecorded)
        (nrPaired, x) ∧
      (x.probes.Nodup ↔ EachStep (visitStep t) (Fresh t) (s, []) (rootVisits f)) := by
  obtain ⟨nrPaired, hend, hend'⟩ := globalDevdrivPairAttempt_records img t s h
  exact ⟨nrPaired, _, hend, hend', (unrecorded_recalled t s).nodup_iff ht
    fun d hd => h.ne_null d ((visits_subset f).1 hd)⟩

/-- The second child is come to twice, and has its driver by then. -/
theorem probedOnce_iff_smallTree : rootVisits smallForest = [1024, 2048, 3072, 4096, 3072] ∧
    ∃ nrPaired x, Settles (fun fuel =>
        globalDevdrivPairAttempt ⟨1024, 2048⟩ anyPciDriver fuel smallTree) (nrPaired, x.forget) ∧
      Settles (fun fuel => globalDevdrivPairAttempt ⟨1024, 2048⟩ (recording anyPciDriver) fuel
        smallTree.unrecorded) (nrPaired, x) ∧ x.probes.Nodup := by
  obtain ⟨nrPaired, x, hend, hend', hiff⟩ := probedOnce_iff ⟨1024, 2048⟩ anyPciDriver smallTree
    smallForest (List.nodup_cons.mpr (by simp)) smallTree_spans
  refine ⟨rfl, nrPaired, x, hend, hend', hiff.mpr ?_⟩
  have hvisits : rootVisits smallForest = [1024, 2048, 3072, 4096, 3072] := rfl
  rw [hvisits]
  simp only [eachStep_fresh_cons]
  exact ⟨fun h => absurd h (by decide), fun h => absurd h (by decide),
    fun h => absurd h (by decide), fun h => absurd h (by decide), fun _ => Or.inl (by decide),
    eachStep_nil⟩

/-- Whatever the drivers do, so it is for a tree whose devices the walk comes to once each. -/
theorem probedOnce_of_visitedOnce (img : DeviceImage) (t : DriverInfo σ) (s : PairState σ)
    (ht : t.pTable.Nodup) (h : Hangs s (getSystemRootDevice img) f)
    (hone : (rootVisits f).Nodup) :
    ∃ nrPaired x, Settles (fun fuel => globalDevdrivPairAttempt img (recording t) fuel s.unrecorded)
        (nrPaired, x) ∧ x.probes.Nodup := by
  obtain ⟨nrPaired, -, hend⟩ := globalDevdrivPairAttempt_records img t s h
  refine ⟨nrPaired, _, hend, ((unrecorded_recalled t s).nodup_iff ht fun d hd => ?_).mpr ?_⟩
  · exact h.ne_null d ((visits_subset f).1 hd)
  · exact fresh_of_nodup t hone fun d _ => List.not_mem_nil

def twoFunctions : PairState Unit where
  devices := fun p =>
    if p = 1024 then { zeroDevice with onBus := .BUS_ROOT, p1stKid := 2048 }
    else if p = 2048 then { zeroDevice with onBus := .BUS_PCI, pParent := 1024, pNxtSib := 3072 }
    else if p = 3072 then { zeroDevice with onBus := .BUS_PCI, pParent := 1024 }
    else zeroDevice
  world := ()
  tries := []

def failingDriver : DriverInfo Unit where
  drivers := fun p =>
    { anyPciDriver.drivers p with devInit := some fun w _ _ => (false, w) }
  pTable := [512]

/-- The second function is probed twice. -/
theorem sibling_probed_twice :
    Spans (kidIn twoFunctions) (sibIn twoFunctions) 0 1024
        (.cons 1024 (.cons 2048 .nil (.cons 3072 .nil .nil)) .nil) ∧
      ∃ nrPaired x, Settles (fun fuel => globalDevdrivPairAttempt ⟨1024, 2048⟩
        (recording failingDriver) fuel twoFunctions.unrecorded) (nrPaired, x) ∧
        ¬x.probes.Nodup := by
  have hspans : Spans (kidIn twoFunctions) (sibIn twoFunctions) 0 1024
      (.cons 1024 (.cons 2048 .nil (.cons 3072 .nil .nil)) .nil) :=
    ⟨rfl, by decide, ⟨rfl, by decide, rfl, rfl, by decide, rfl, rfl⟩, rfl⟩
  obtain ⟨nrPaired, -, hend⟩ :=
    globalDevdrivPairAttempt_records ⟨1024, 2048⟩ failingDriver twoFunctions hspans
  refine ⟨hspans, nrPaired, _, hend, ?_⟩
  have hprobes : (visitAll (recording failingDriver) twoFunctions.unrecorded
      [1024, 2048, 3072, 3072]).probes = [(512, 3072), (512, 3072), (512, 2048)] := rfl
  have hvisits : rootVisits (.cons 1024 (.cons 2048 .nil (.cons 3072 .nil .nil)) .nil) =
      [1024, 2048, 3072, 3072] := rfl
  rw [hvisits, hprobes]
  decide

end Ych.Devdriv
