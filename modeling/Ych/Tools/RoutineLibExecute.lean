import Ych.Base.Numerals
import Ych.Tools.RoutineLib

/-! The execution of a registered routine: the arguments are counted, read by the types of the
parameters and given to the routine's handler. -/
namespace Ych.RoutineLib
open Numerals

def EXIT_SUCCESS : Nat := 0
def EXIT_FAILURE : Nat := 1
def ROUTINE_OK : Int := 0
def ROUTINE_NOT_IMPLEMENTED : Int := 2

structure RegisteredRoutine where
  routine : Routine
  handler : Routine → Int

def registerRoutine (registry : List RegisteredRoutine) (entry : RegisteredRoutine) :
    Bool × List RegisteredRoutine :=
  let (accepted, routine) := finalizeRoutine entry.routine entry.routine.usage.isNone
  (accepted, registry ++ [{ entry with routine := routine }])

/-! ### Numbers -/

def isSpace (c : Char) : Bool :=
  decide (c ∈ [' ', '\t', '\n', Char.ofNat 0x0B, Char.ofNat 0x0C, '\r'])

def splitSign : List Char → Bool × List Char
  | '-' :: text => (true, text)
  | '+' :: text => (false, text)
  | text => (false, text)

def digitValue (c : Char) : Nat := c.toNat - '0'.toNat

def LONG_MIN : Int := -2 ^ 63
def LONG_MAX : Int := 2 ^ 63 - 1

/-- `strtol` to the base 10: the value, and how many characters are in front of the end
pointer. -/
def strtol (text : List Char) : Int × Nat :=
  let unspaced := text.dropWhile isSpace
  let (negative, unsigned) := splitSign unspaced
  let digits := unsigned.takeWhile Char.isDigit
  if digits.isEmpty then (0, 0)
  else
    let magnitude : Int := readDigits digitValue 10 digits
    (max LONG_MIN (min LONG_MAX (if negative then -magnitude else magnitude)),
      text.length - unsigned.length + digits.length)

def toInt32 (n : Int) : Int := n.bmod (2 ^ 32)

/-! ### Arguments -/

/-- A text that is printed does not always end the reading. -/
inductive ArgumentRead where
  | stored (param : RoutineParameter)
  | noted (text : String)
  | refused (text : String)

def readArgument (rqroutname : String) (i : Nat) (param : RoutineParameter) (arg : String) :
    ArgumentRead :=
  match param.type with
  | .integer =>
    let (val, consumed) := strtol arg.toList
    if consumed = 0 then
      .refused (s!"RoutineLib: Parameter No.{i + 1} of routine `{rqroutname}` is supposed to be " ++
        "an integer.\n")
    else .stored { param with intValue := toInt32 val }
  | .string => .stored { param with strValue := some arg }
  | .boolean =>
    if arg = "False" then .stored { param with bitValue := false }
    else if arg = "True" then .stored { param with bitValue := true }
    else
      .noted (s!"RoutineLib: Parameter No.{i + 1} of routine `{rqroutname}` is supposed to be " ++
        "a boolean, therefore only accepts the values `False` and `True`.\n")

structure ArgumentsRead where
  parameters : List RoutineParameter
  printed : List String
  refused : Bool

/-- The loop over the arguments from index `i` on; there are not more of them than parameters. -/
def readArguments (rqroutname : String) :
    Nat → List RoutineParameter → List String → ArgumentsRead
  | _, params, [] => ⟨params, [], false⟩
  | _, [], _ :: _ => ⟨[], [], false⟩
  | i, param :: params, arg :: args =>
    match readArgument rqroutname i param arg with
    | .stored param =>
      let rest := readArguments rqroutname (i + 1) params args
      ⟨param :: rest.parameters, rest.printed, rest.refused⟩
    | .noted text =>
      let rest := readArguments rqroutname (i + 1) params args
      ⟨param :: rest.parameters, text :: rest.printed, rest.refused⟩
    | .refused text => ⟨param :: params, [text], true⟩

/-! ### Execution -/

structure ExecuteResult where
  registry : List RegisteredRoutine
  printed : List String
  handled : List Routine
  exitCode : Nat

def resultText (rqroutname : String) (result : Int) : String × Nat :=
  if result = ROUTINE_OK then
    (s!"RoutineLib: The action `{rqroutname}` has been completed successfully.\n", EXIT_SUCCESS)
  else if result = ROUTINE_NOT_IMPLEMENTED then
    (s!"RoutineLib: The action `{rqroutname}` is not implemented yet.\n", EXIT_FAILURE)
  else
    (s!"RoutineLib: The action `{rqroutname}` has failed with the return code {result}.\n",
      EXIT_FAILURE)

def executeRoutine (rqroutname : String) (args : List String) (entry : RegisteredRoutine)
    (rest : List RegisteredRoutine) : ExecuteResult :=
  let argc := args.length
  let routine := entry.routine
  if argc < routine.minParameters then
    ⟨entry :: rest, [s!"RoutineLib: Routine `{rqroutname}` requires at least " ++
      s!"{routine.minParameters} parameters but only {argc} were provided.\n"], [], EXIT_FAILURE⟩
  else if routine.parameters.length < argc then
    ⟨entry :: rest, [s!"RoutineLib: Routine `{rqroutname}` accepts at most " ++
      s!"{routine.parameters.length} parameters but over {argc} were provided.\n"], [],
      EXIT_FAILURE⟩
  else
    let read := readArguments rqroutname 0 routine.parameters args
    let routine := { routine with parameters := read.parameters }
    let registry := { entry with routine := routine } :: rest
    if read.refused then ⟨registry, read.printed, [], EXIT_FAILURE⟩
    else
      let (text, exitCode) := resultText rqroutname (entry.handler routine)
      ⟨registry, read.printed ++ [text], [routine], exitCode⟩

def executeIn (rqroutname : String) (args : List String) :
    List RegisteredRoutine → ExecuteResult
  | [] => ⟨[], [s!"RoutineLib: No such action as `{rqroutname}` exists. Use the `Help` action " ++
      "to display all available actions.\n"], [], EXIT_FAILURE⟩
  | entry :: rest =>
    if rqroutname = entry.routine.name then executeRoutine rqroutname args entry rest
    else
      let result := executeIn rqroutname args rest
      { result with registry := entry :: result.registry }

def routineLibExecute (registry : List RegisteredRoutine) : List String → ExecuteResult
  | [] => ⟨registry, ["RoutineLib: Nothing to do. Use action `Help` to display all available " ++
      "actions.\n"], [], 0⟩
  | rqroutname :: args => executeIn rqroutname args registry

/-! ### Acceptable arguments -/

def Acceptable (param : RoutineParameter) (arg : String) : Prop :=
  match param.type with
  | .integer => 0 < (strtol arg.toList).2
  | .string => True
  | .boolean => arg = "True" ∨ arg = "False"

structure Accepts (params : List RoutineParameter) (args : List String) : Prop where
  least : mandatoryCount params ≤ args.length
  most : args.length ≤ params.length
  acceptable : ∀ pair ∈ params.zip args, Acceptable pair.1 pair.2

structure MadeRoutine where
  name : String
  description : String
  parameters : List RoutineParameter
  handler : Routine → Int
  ordered : WellOrdered parameters

def MadeRoutine.entry (made : MadeRoutine) : RegisteredRoutine :=
  ⟨made.parameters.foldl addRoutineParameter (makeRoutine made.name made.description),
    made.handler⟩

def registerAll (routines : List MadeRoutine) : List RegisteredRoutine :=
  routines.foldl (fun registry made => (registerRoutine registry made.entry).2) []

def requested (routines : List MadeRoutine) (rqroutname : String) : Option MadeRoutine :=
  routines.find? fun made => decide (rqroutname = made.name)

/-- No handler is called for arguments that are not accepted, and the execution fails. Without a
name no routine is asked for, nor is any called. -/
def ExecutesWell (routines : List MadeRoutine) (argv : List String) : Prop :=
  let result := routineLibExecute (registerAll routines) argv
  match argv with
  | [] => result.handled = []
  | rqroutname :: args =>
    match requested routines rqroutname with
    | none => result.handled = [] ∧ result.exitCode = EXIT_FAILURE
    | some made =>
      ¬ Accepts made.parameters args → result.handled = [] ∧ result.exitCode = EXIT_FAILURE

/-- Everything the execution looks at is right, but a boolean is neither of the two words. -/
structure BooleanSlips (params : List RoutineParameter) (args : List String) : Prop where
  least : (if mandatoryCount params = 0 then params.length else mandatoryCount params) ≤
    args.length
  most : args.length ≤ params.length
  integers : ∀ pair ∈ params.zip args, pair.1.type = .integer → Acceptable pair.1 pair.2
  boolean : ∃ pair ∈ params.zip args, pair.1.type = .boolean ∧ ¬ Acceptable pair.1 pair.2

variable {rqroutname : String} {i : Nat} {param : RoutineParameter}
  {params : List RoutineParameter} {arg : String} {args : List String}
  {entry : RegisteredRoutine} {rest : List RegisteredRoutine}

theorem readArgument_refused_iff :
    (∃ text, readArgument rqroutname i param arg = .refused text) ↔
      ¬ (param.type = .integer → Acceptable param arg) := by
  unfold readArgument Acceptable
  cases param.type with
  | integer =>
    by_cases h : (strtol arg.toList).2 = 0
    · simp [h]
    · simp [h, Nat.pos_iff_ne_zero]
  | string => simp
  | boolean =>
    by_cases hfalse : arg = "False"
    · simp [hfalse]
    · by_cases htrue : arg = "True"
      · simp [htrue]
      · simp [hfalse, htrue]

theorem readArguments_refused (params : List RoutineParameter) (args : List String)
    (h : args.length ≤ params.length) :
    (readArguments rqroutname i params args).refused = false ↔
      ∀ pair ∈ params.zip args, pair.1.type = .integer → Acceptable pair.1 pair.2 := by
  induction params generalizing i args with
  | nil =>
    obtain rfl := List.length_eq_zero_iff.mp (Nat.le_zero.mp h)
    simp [readArguments]
  | cons param params ih =>
    cases args with
    | nil => simp [readArguments]
    | cons arg args =>
      have hrest := @ih (i + 1) args (Nat.le_of_succ_le_succ h)
      rw [List.zip_cons_cons, List.forall_mem_cons, ← hrest]
      have hfirst := @readArgument_refused_iff rqroutname i param arg
      rw [readArguments]
      cases hread : readArgument rqroutname i param arg with
      | stored param' =>
        simp only [hread, reduceCtorEq, exists_false, false_iff, not_not] at hfirst
        exact (and_iff_right hfirst).symm
      | noted text =>
        simp only [hread, reduceCtorEq, exists_false, false_iff, not_not] at hfirst
        exact (and_iff_right hfirst).symm
      | refused text =>
        have hrefused := hfirst.mp ⟨text, hread⟩
        exact iff_of_false (by simp) fun hall => hrefused hall.1

structure LooksRight (routine : Routine) (args : List String) : Prop where
  least : routine.minParameters ≤ args.length
  most : args.length ≤ routine.parameters.length
  integers : ∀ pair ∈ routine.parameters.zip args,
    pair.1.type = .integer → Acceptable pair.1 pair.2

theorem executeRoutine_of_right (h : LooksRight entry.routine args) :
    (executeRoutine rqroutname args entry rest).handled ≠ [] := by
  have hread := (@readArguments_refused rqroutname 0 entry.routine.parameters args h.most).mpr
    h.integers
  simp [executeRoutine, Nat.not_lt.mpr h.least, Nat.not_lt.mpr h.most, hread]

theorem executeRoutine_of_wrong (h : ¬ LooksRight entry.routine args) :
    (executeRoutine rqroutname args entry rest).handled = [] ∧
      (executeRoutine rqroutname args entry rest).exitCode = EXIT_FAILURE := by
  rw [executeRoutine]
  by_cases hleast : args.length < entry.routine.minParameters
  · simp [hleast]
  · by_cases hmost : entry.routine.parameters.length < args.length
    · simp [hleast, hmost]
    · have hread : (readArguments rqroutname 0 entry.routine.parameters args).refused = true := by
        by_contra hnot
        have hintegers := (readArguments_refused _ _ (Nat.le_of_not_lt hmost)).mp
          (Bool.not_eq_true _ ▸ hnot)
        exact h ⟨Nat.le_of_not_lt hleast, Nat.le_of_not_lt hmost, hintegers⟩
      simp [hleast, hmost, hread]

theorem executeIn_some {registry : List RegisteredRoutine}
    (h : registry.find? (fun entry => decide (rqroutname = entry.routine.name)) = some entry) :
    ∃ rest, (executeIn rqroutname args registry).handled =
        (executeRoutine rqroutname args entry rest).handled ∧
      (executeIn rqroutname args registry).exitCode =
        (executeRoutine rqroutname args entry rest).exitCode := by
  induction registry with
  | nil => cases h
  | cons first registry ih =>
    rw [List.find?_cons] at h
    rw [executeIn]
    by_cases hname : rqroutname = first.routine.name
    · rw [decide_eq_true hname] at h
      obtain rfl := Option.some.inj h
      exact ⟨registry, by rw [if_pos hname], by rw [if_pos hname]⟩
    · rw [decide_eq_false hname] at h
      rw [if_neg hname]
      exact ih h

theorem executeIn_none {registry : List RegisteredRoutine}
    (h : registry.find? (fun entry => decide (rqroutname = entry.routine.name)) = none) :
    (executeIn rqroutname args registry).handled = [] ∧
      (executeIn rqroutname args registry).exitCode = EXIT_FAILURE := by
  induction registry with
  | nil => exact ⟨rfl, rfl⟩
  | cons first registry ih =>
    rw [List.find?_cons] at h
    rw [executeIn]
    by_cases hname : rqroutname = first.routine.name
    · rw [decide_eq_true hname] at h
      cases h
    · rw [decide_eq_false hname] at h
      rw [if_neg hname]
      exact ih h

/-! ### Registered routines -/

def MadeRoutine.registered (made : MadeRoutine) : RegisteredRoutine :=
  { made.entry with
    routine := (finalizeRoutine made.entry.routine made.entry.routine.usage.isNone).2 }

theorem registerAll_eq (routines : List MadeRoutine) :
    registerAll routines = routines.map MadeRoutine.registered := by
  have hfold : ∀ registry, routines.foldl
      (fun registry made => (registerRoutine registry made.entry).2) registry =
      registry ++ routines.map MadeRoutine.registered := by
    induction routines with
    | nil => simp
    | cons made routines ih =>
      intro registry
      rw [List.foldl_cons, ih]
      simp [registerRoutine, MadeRoutine.registered]
  simpa [registerAll] using hfold []

theorem entry_routine (made : MadeRoutine) : made.entry.routine =
    { makeRoutine made.name made.description with parameters := made.parameters } := by
  rw [MadeRoutine.entry, foldl_addRoutineParameter]
  rfl

theorem finalizeRoutine_kept (routine : Routine) (populateUsage : Bool) :
    (finalizeRoutine routine populateUsage).2.name = routine.name ∧
      (finalizeRoutine routine populateUsage).2.parameters = routine.parameters := by
  rw [finalizeRoutine]
  split <;> exact ⟨rfl, rfl⟩

@[simp] theorem registered_name (made : MadeRoutine) :
    made.registered.routine.name = made.name := by
  rw [MadeRoutine.registered, (finalizeRoutine_kept _ _).1, entry_routine]
  rfl

@[simp] theorem registered_parameters (made : MadeRoutine) :
    made.registered.routine.parameters = made.parameters := by
  rw [MadeRoutine.registered, (finalizeRoutine_kept _ _).2, entry_routine]

theorem registered_minParameters (made : MadeRoutine) :
    made.registered.routine.minParameters =
      if mandatoryCount made.parameters = 0 then made.parameters.length
      else mandatoryCount made.parameters := by
  rw [MadeRoutine.registered, entry_routine]
  exact finalizeRoutine_minParameters rfl made.ordered

theorem find_registered (routines : List MadeRoutine) (rqroutname : String) :
    (registerAll routines).find? (fun entry => decide (rqroutname = entry.routine.name)) =
      (requested routines rqroutname).map MadeRoutine.registered := by
  rw [registerAll_eq, List.find?_map, requested]
  refine congrArg (Option.map MadeRoutine.registered) (congrArg (List.find? · routines) ?_)
  funext made
  rw [Function.comp_apply, registered_name]

theorem looksRight_iff (made : MadeRoutine) :
    LooksRight made.registered.routine args ↔
      (if mandatoryCount made.parameters = 0 then made.parameters.length
        else mandatoryCount made.parameters) ≤ args.length ∧
      args.length ≤ made.parameters.length ∧
      ∀ pair ∈ made.parameters.zip args, pair.1.type = .integer → Acceptable pair.1 pair.2 := by
  constructor
  · intro h
    exact ⟨registered_minParameters made ▸ h.least, registered_parameters made ▸ h.most,
      registered_parameters made ▸ h.integers⟩
  · rintro ⟨hleast, hmost, hintegers⟩
    refine ⟨?_, ?_, ?_⟩
    · rwa [registered_minParameters]
    · rwa [registered_parameters]
    · rwa [registered_parameters]

theorem booleanSlips_iff (made : MadeRoutine) :
    BooleanSlips made.parameters args ↔
      LooksRight made.registered.routine args ∧ ¬ Accepts made.parameters args := by
  rw [looksRight_iff]
  constructor
  · intro h
    obtain ⟨pair, hpair, _, hwrong⟩ := h.boolean
    exact ⟨⟨h.least, h.most, h.integers⟩, fun haccepts => hwrong (haccepts.acceptable pair hpair)⟩
  · rintro ⟨⟨hleast, hmost, hintegers⟩, hnot⟩
    refine ⟨hleast, hmost, hintegers, ?_⟩
    by_contra hnone
    refine hnot ⟨?_, hmost, fun pair hpair => ?_⟩
    · split at hleast <;> omega
    · cases htype : pair.1.type with
      | integer => exact hintegers pair hpair htype
      | string => simp [Acceptable, htype]
      | boolean =>
        by_contra hwrong
        exact hnone ⟨pair, hpair, htype, hwrong⟩

/-- Whatever routines are registered and whatever they are called with: the execution is as it
should be, unless a boolean that is neither of the two words is all that is wrong. -/
theorem routineLibExecute_well_iff (routines : List MadeRoutine) (argv : List String) :
    ExecutesWell routines argv ↔
      ∀ rqroutname args made, argv = rqroutname :: args →
        requested routines rqroutname = some made → ¬ BooleanSlips made.parameters args := by
  cases argv with
  | nil => exact iff_of_true rfl fun rqroutname args made h => by cases h
  | cons rqroutname args =>
    have hfind := find_registered routines rqroutname
    cases hrequested : requested routines rqroutname with
    | none =>
      rw [hrequested] at hfind
      refine iff_of_true ?_ fun rqroutname' args' made h => ?_
      · simpa [ExecutesWell, hrequested, routineLibExecute] using executeIn_none hfind
      · cases h
        simp [hrequested]
    | some made =>
      rw [hrequested] at hfind
      obtain ⟨rest, hhandled, hexit⟩ := @executeIn_some rqroutname args _ _ hfind
      have hslips := @booleanSlips_iff args made
      have hwell : ExecutesWell routines (rqroutname :: args) ↔
          (¬ Accepts made.parameters args →
            (executeRoutine rqroutname args made.registered rest).handled = [] ∧
              (executeRoutine rqroutname args made.registered rest).exitCode = EXIT_FAILURE) := by
        rw [← hhandled, ← hexit]
        simp only [ExecutesWell, hrequested, routineLibExecute]
      have hone : (∀ rqroutname' args' made', rqroutname :: args = rqroutname' :: args' →
          requested routines rqroutname' = some made' → ¬ BooleanSlips made'.parameters args') ↔
          ¬ BooleanSlips made.parameters args := by
        constructor
        · intro h
          exact h rqroutname args made rfl hrequested
        · intro h rqroutname' args' made' hargv hfound
          cases hargv
          cases hrequested.symm.trans hfound
          exact h
      rw [hwell, hone, hslips]
      by_cases hlooks : LooksRight made.registered.routine args
      · -- the handler is called: as it should be only for arguments that are accepted
        have hcalled := @executeRoutine_of_right rqroutname args made.registered rest hlooks
        simp [hlooks, hcalled]
      · have hrejected := @executeRoutine_of_wrong rqroutname args made.registered rest hlooks
        exact iff_of_true (fun _ => hrejected) fun h => hlooks h.1

/-- A boolean that is neither of the two words is printed about, and the handler is called. -/
theorem wrongBoolean_executed :
    ¬ ∀ (routines : List MadeRoutine) (argv : List String), ExecutesWell routines argv := by
  intro h
  let flag : RoutineParameter := ⟨.boolean, "Flag", "A flag.", false, 0, none, false⟩
  let made : MadeRoutine := ⟨"Sample", "A sample.", [flag], fun _ => ROUTINE_OK, by
    simp [WellOrdered]⟩
  have hnot : ¬ Accepts [flag] ["maybe"] := fun haccepts => by
    have hacceptable := haccepts.acceptable (flag, "maybe") (by simp)
    revert hacceptable
    simp [Acceptable, flag]
  have hexit := (h [made] ["Sample", "maybe"] hnot).2
  revert hexit
  decide

end Ych.RoutineLib
