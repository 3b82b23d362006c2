import Mathlib.Data.List.Nodup
import Ych.Base.Runs
import Ych.Base.Words

/-! The table of the loaded drivers: it is acquired with the first one, and cannot grow. -/
namespace Ych.Drivers
open Runs Words

def INITIAL_DRIVERS_RESERVE_COUNT : Nat := 32
def HEAP_DEFAULT_ALIGNMENT : Nat := 16
def POINTER_SIZE : Nat := 8

/-- Still to be written in the source. -/
def heapAlignedReAcquire (_ptr _n _alignment : Nat) : Nat := 0

def heapReAcquire (ptr n : Nat) : Nat := heapAlignedReAcquire ptr n HEAP_DEFAULT_ALIGNMENT

/-- The table's state, the words of the heap by their addresses, and `bRegistered` of the drivers,
which are no part of the heap. The drivers that became registered, in their order, are recorded in
`order`, which nothing reads. -/
structure DriverState where
  nrLoaded : Nat
  nrCap : Nat
  pTable : Nat
  words : Nat → Nat
  bRegistered : Nat → Bool
  order : List Nat

/-- The driver, what `HeapAcquire` returns if it is called, and the driver's `Register`. -/
structure Call where
  pDriver : Nat
  acquired : Nat
  registered : Bool

def DriverState.written (s : DriverState) (d : Nat) : Nat → Nat :=
  Function.update s.words (s.pTable + POINTER_SIZE * s.nrLoaded) d

variable (hasRegister : Nat → Bool)

def registers (c : Call) : Bool := if hasRegister c.pDriver then c.registered else true

/-- The entry is written first and taken back if the driver does not register. -/
def enter (s : DriverState) (c : Call) : DriverState :=
  let s := { s with
    words := s.written c.pDriver
    nrLoaded := wrap32 (s.nrLoaded + 1) }
  let bRegistered := registers hasRegister c
  let s := { s with
    bRegistered := Function.update s.bRegistered c.pDriver bRegistered
    order := if bRegistered then s.order ++ [c.pDriver] else s.order }
  if bRegistered then s else { s with nrLoaded := sub32 s.nrLoaded 1 }

def registerDriver (s : DriverState) (c : Call) : Bool × DriverState :=
  if c.pDriver = 0 ∨ s.bRegistered c.pDriver then (false, s)
  else if s.nrCap = 0 then
    let s := { s with pTable := c.acquired }
    if s.pTable = 0 then (false, s)
    else (true, enter hasRegister
      { s with nrCap := INITIAL_DRIVERS_RESERVE_COUNT, nrLoaded := 0 } c)
  else if s.nrLoaded = s.nrCap then
    let nrCap := wrap32 (s.nrCap + INITIAL_DRIVERS_RESERVE_COUNT)
    let s := { s with pTable := heapReAcquire s.pTable (POINTER_SIZE * nrCap) }
    if s.pTable = 0 then (false, s) else (true, enter hasRegister { s with nrCap := nrCap } c)
  else (true, enter hasRegister s c)

def registerStep (s : DriverState) (c : Call) : Option DriverState :=
  some (registerDriver hasRegister s c).2

def bootDrivers (words : Nat → Nat) : DriverState := ⟨0, 0, 0, words, fun _ => false, []⟩

def tableOf (s : DriverState) : List Nat :=
  (List.range s.nrLoaded).map fun i => s.words (s.pTable + POINTER_SIZE * i)

structure TableKept (s : DriverState) : Prop where
  ordered : tableOf s = s.order
  registered : ∀ d, d ∈ tableOf s ↔ s.bRegistered d = true
  once : (tableOf s).Nodup
  room : s.nrLoaded ≤ s.nrCap
  table : 0 < s.nrLoaded → s.pTable ≠ 0

/-- No driver is to be added to the full table. -/
def RoomFor (s : DriverState) (c : Call) : Prop :=
  c.pDriver = 0 ∨ s.bRegistered c.pDriver = true ∨ s.nrLoaded ≠ INITIAL_DRIVERS_RESERVE_COUNT

def DriverState.entered (s : DriverState) (d : Nat) : DriverState :=
  { s with
    words := s.written d
    nrLoaded := s.nrLoaded + 1
    bRegistered := Function.update s.bRegistered d true
    order := s.order ++ [d] }

structure Tabled (s : DriverState) : Prop extends TableKept s where
  acquired : s.nrCap = 0 ∨ s.nrCap = INITIAL_DRIVERS_RESERVE_COUNT ∧ s.pTable ≠ 0

variable {hasRegister} {s t : DriverState} {c : Call} {words : Nat → Nat}

theorem bootDrivers_tabled (words : Nat → Nat) : Tabled (bootDrivers words) where
  ordered := rfl
  registered := fun _ => iff_of_false List.not_mem_nil Bool.false_ne_true
  once := List.nodup_nil
  room := Nat.le_refl 0
  table := fun h => absurd h (Nat.lt_irrefl 0)
  acquired := Or.inl rfl

theorem enter_eq (hlt : s.nrLoaded < 2 ^ 32 - 1) (hno : s.bRegistered c.pDriver = false) :
    enter hasRegister s c =
      if registers hasRegister c then s.entered c.pDriver
      else { s with words := s.written c.pDriver } := by
  have hnext : wrap32 (s.nrLoaded + 1) = s.nrLoaded + 1 := wrap32_of_lt (by omega)
  have hback : sub32 (s.nrLoaded + 1) 1 = s.nrLoaded := sub32_of_le (by omega) (by omega)
  have hsame : Function.update s.bRegistered c.pDriver false = s.bRegistered := by
    rw [← hno, Function.update_eq_self]
  unfold enter
  dsimp only
  rw [hnext]
  cases registers hasRegister c with
  | true => simp only [if_true, DriverState.entered]
  | false => simp only [Bool.false_eq_true, if_false, hback, hsame]

theorem tableOf_written (s : DriverState) (d : Nat) :
    tableOf { s with words := s.written d } = tableOf s := by
  refine List.map_congr_left fun i hi => Function.update_of_ne ?_ _ _
  have hlt : i < s.nrLoaded := List.mem_range.mp hi
  show s.pTable + 8 * i ≠ s.pTable + 8 * s.nrLoaded
  omega

theorem tableOf_entered (s : DriverState) (d : Nat) : tableOf (s.entered d) = tableOf s ++ [d] := by
  have hlast : s.written d (s.pTable + POINTER_SIZE * s.nrLoaded) = d := Function.update_self _ _ _
  show (List.range (s.nrLoaded + 1)).map
    (fun i => s.written d (s.pTable + POINTER_SIZE * i)) = _
  rw [List.range_succ, List.map_append, List.map_singleton, hlast]
  exact congrArg (· ++ [d]) (tableOf_written s d)

theorem Tabled.written (h : Tabled s) (d : Nat) : Tabled { s with words := s.written d } := by
  have hsame := tableOf_written s d
  exact ⟨⟨hsame.trans h.ordered, fun e => by rw [hsame, h.registered e], hsame ▸ h.once, h.room,
    h.table⟩, h.acquired⟩

theorem Tabled.entered (h : Tabled s) {d : Nat} (hno : s.bRegistered d = false)
    (hroom : s.nrLoaded < s.nrCap) : Tabled (s.entered d) := by
  have hlist := tableOf_entered s d
  have hnew : d ∉ tableOf s := by
    rw [h.registered, hno]
    exact Bool.false_ne_true
  refine ⟨⟨?_, fun e => ?_, ?_, hroom, fun _ => ?_⟩, h.acquired⟩
  · rw [hlist, h.ordered]
    rfl
  · rw [hlist, List.mem_append, List.mem_singleton, h.registered]
    show _ ↔ Function.update s.bRegistered d true e = true
    by_cases he : e = d
    · rw [he, Function.update_self]
      exact iff_of_true (Or.inr rfl) rfl
    · rw [Function.update_of_ne he, or_iff_left he]
  · rw [hlist]
    exact List.nodup_append_comm.mp (List.nodup_cons.mpr ⟨hnew, h.once⟩)
  · obtain hnone | ⟨-, hsome⟩ := h.acquired
    · exact absurd (hnone ▸ hroom) (Nat.not_lt_zero _)
    · exact hsome

theorem Tabled.enter (h : Tabled s) (hno : s.bRegistered c.pDriver = false)
    (hroom : s.nrLoaded < s.nrCap) : Tabled (enter hasRegister s c) := by
  have hcap : s.nrCap ≤ INITIAL_DRIVERS_RESERVE_COUNT := by
    obtain hnone | ⟨hsome, -⟩ := h.acquired
    · exact hnone ▸ Nat.zero_le _
    · exact hsome.le
  have hsmall : INITIAL_DRIVERS_RESERVE_COUNT < 2 ^ 32 - 1 := by decide
  rw [enter_eq (by omega) hno]
  split
  · exact h.entered hno hroom
  · exact h.written c.pDriver

theorem Tabled.first (h : Tabled s) (hcap : s.nrCap = 0) (hinv : t.nrLoaded = 0)
    (hsame : t.bRegistered = s.bRegistered ∧ t.order = s.order)
    (htable : t.nrCap = 0 ∨ t.nrCap = INITIAL_DRIVERS_RESERVE_COUNT ∧ t.pTable ≠ 0) :
    Tabled t := by
  have hnone : s.nrLoaded = 0 := Nat.le_zero.mp (hcap ▸ h.room)
  have hempty : tableOf s = [] := by
    rw [tableOf, hnone]
    rfl
  have hempty' : tableOf t = tableOf s := by
    rw [hempty, tableOf, hinv]
    rfl
  refine ⟨⟨?_, fun d => ?_, hempty' ▸ h.once, hinv ▸ Nat.zero_le _, fun hpos => ?_⟩, htable⟩
  · rw [hempty', h.ordered, hsame.2]
  · rw [hempty', h.registered, hsame.1]
  · exact absurd (hinv ▸ hpos) (Nat.lt_irrefl 0)

/-- A call that finds no room loses the table. -/
theorem registerDriver_full (h : ¬RoomFor s c)
    (hcap : s.nrCap = INITIAL_DRIVERS_RESERVE_COUNT) :
    registerDriver hasRegister s c = (false, { s with pTable := 0 }) := by
  obtain ⟨hd, hno, hfull⟩ : c.pDriver ≠ 0 ∧ ¬s.bRegistered c.pDriver = true ∧
      s.nrLoaded = INITIAL_DRIVERS_RESERVE_COUNT := by
    unfold RoomFor at h
    tauto
  have hne : s.nrCap ≠ 0 := hcap ▸ (by decide)
  rw [registerDriver, if_neg (not_or.mpr ⟨hd, hno⟩), if_neg hne, if_pos (hfull.trans hcap.symm)]
  rfl

theorem Tabled.registerDriver (h : Tabled s) (hroom : RoomFor s c) :
    Tabled (registerDriver hasRegister s c).2 := by
  unfold Drivers.registerDriver
  split
  · exact h
  · rename_i hnew
    obtain ⟨hd, hno⟩ := not_or.mp hnew
    have hno : s.bRegistered c.pDriver = false := Bool.eq_false_iff.mpr hno
    split
    · rename_i hcap
      have hnone : s.nrLoaded = 0 := Nat.le_zero.mp (hcap ▸ h.room)
      dsimp only
      split
      · exact h.first hcap hnone ⟨rfl, rfl⟩ (Or.inl hcap)
      · rename_i hacquired
        have hempty : 0 < INITIAL_DRIVERS_RESERVE_COUNT := by decide
        exact (h.first (t := { s with pTable := c.acquired, nrCap := _, nrLoaded := 0 }) hcap rfl
          ⟨rfl, rfl⟩ (Or.inr ⟨rfl, hacquired⟩)).enter hno hempty
    · rename_i hcap
      obtain ⟨hcap, htable⟩ := h.acquired.resolve_left hcap
      have hfull : s.nrLoaded ≠ INITIAL_DRIVERS_RESERVE_COUNT := by
        obtain hzero | hreg | hfull := hroom
        · exact absurd hzero hd
        · exact absurd hreg (Bool.eq_false_iff.mp hno)
        · exact hfull
      rw [if_neg (hcap ▸ hfull)]
      exact h.enter hno (Nat.lt_of_le_of_ne h.room (hcap ▸ hfull))

theorem Tabled.step (h : Tabled s) (hstep : registerStep hasRegister s c = some t) :
    (TableKept t ↔ RoomFor s c) ∧ (RoomFor s c → Tabled t) := by
  obtain rfl := Option.some.inj hstep
  have hkeep : RoomFor s c → Tabled (Drivers.registerDriver hasRegister s c).2 := h.registerDriver
  refine ⟨⟨fun hkept => ?_, fun hroom => (hkeep hroom).toTableKept⟩, hkeep⟩
  by_contra hno
  obtain hcap | ⟨hcap, -⟩ := h.acquired
  · have hnone : s.nrLoaded = 0 := Nat.le_zero.mp (hcap ▸ h.room)
    exact hno (Or.inr (Or.inr (hnone ▸ (by decide))))
  · have hfull : s.nrLoaded = INITIAL_DRIVERS_RESERVE_COUNT := by
      unfold RoomFor at hno
      tauto
    have htable := hkept.table
    rw [registerDriver_full hno hcap] at htable
    exact htable (hfull ▸ (by decide)) rfl

/-- In a run of calls from boot on, the table lists the registered drivers throughout exactly if
there is room for each new one. -/
theorem tableKept_iff (hasRegister : Nat → Bool) (words : Nat → Nat) (calls : List Call) :
    Throughout (registerStep hasRegister) TableKept (bootDrivers words) calls ↔
      EachStep (registerStep hasRegister) RoomFor (bootDrivers words) calls :=
  throughout_iff_eachStep (fun _ h => Tabled.toTableKept h) (fun _ _ _ h hstep => h.step hstep)
    (bootDrivers_tabled words) calls

def manyDrivers : List Call := (List.range 33).map fun i => ⟨4096 * (i + 1), 2 ^ 40, true⟩

/-- The last of them takes the table from the others, which stay registered. -/
theorem table_lost :
    ¬Throughout (registerStep fun _ => false) TableKept (bootDrivers fun _ => 0) manyDrivers := by
  intro hkept
  have hend : (drive (registerStep fun _ => false) (bootDrivers fun _ => 0) manyDrivers).map
      (fun s => (s.nrLoaded, s.pTable)) = some (32, 0) := by
    decide +kernel
  obtain ⟨t, ht, hlost⟩ := Option.map_eq_some_iff.mp hend
  obtain ⟨hloaded, htable⟩ := Prod.mk.inj hlost
  exact (hkept manyDrivers [] t (List.append_nil _).symm ht).table (hloaded ▸ (by decide)) htable

end Ych.Drivers
