import Mathlib.Data.List.Basic

/-! Routines of the command line tools and their parameters: the optional ones come last, and the
least number of arguments is worked out when a routine is finalized. -/
namespace Ych.RoutineLib

inductive RoutineParameterType where
  | integer
  | string
  | boolean
  deriving DecidableEq

/-- `none` is the null pointer. -/
structure RoutineParameter where
  type : RoutineParameterType
  name : String
  description : String
  optional : Bool
  intValue : Int
  strValue : Option String
  bitValue : Bool

structure Routine where
  name : String
  description : String
  usage : Option String
  parameters : List RoutineParameter
  minParameters : Nat

def makeRoutine (name desc : String) : Routine := ⟨name, desc, none, [], 0⟩

def addRoutineParameter (routine : Routine) (param : RoutineParameter) : Routine :=
  { routine with parameters := routine.parameters ++ [param] }

def paramTypeToStr : RoutineParameterType → String
  | .integer => "Int"
  | .string => "Str"
  | .boolean => "Bool"

def defaultText (param : RoutineParameter) : String :=
  match param.type with
  | .integer => toString param.intValue
  | .boolean => if param.bitValue then "True" else "False"
  | .string => param.strValue.getD "(null)"

def usageText (param : RoutineParameter) : String :=
  let head := s!"[{param.name}:{paramTypeToStr param.type}]({param.description})"
  if param.optional then head ++ s!"<Optional,ByDefault={defaultText param}> " else head ++ " "

structure FinalizeState where
  foundOpt : Bool
  stageStr : String
  usage : Option String
  minParameters : Nat

def addUsage (populateUsage : Bool) (param : RoutineParameter) (s : FinalizeState) :
    FinalizeState :=
  if populateUsage then
    { s with stageStr := s.stageStr ++ usageText param
             usage := some (s.stageStr ++ usageText param) }
  else s

def finalizeLoop (populateUsage : Bool) (name : String) :
    Nat → List RoutineParameter → FinalizeState → Except String Unit × FinalizeState
  | _, [], s => (.ok (), s)
  | i, param :: params, s =>
    if s.foundOpt then
      if !param.optional then
        (.error (s!"RoutineLib.FinalizeRoutine: Parameter at index {i} of routine `{name}` was " ++
          "marked as not optional, but comes after an optional parameter."), s)
      else finalizeLoop populateUsage name (i + 1) params (addUsage populateUsage param s)
    else if param.optional then
      finalizeLoop populateUsage name (i + 1) params
        (addUsage populateUsage param { s with minParameters := i, foundOpt := true })
    else finalizeLoop populateUsage name (i + 1) params (addUsage populateUsage param s)

def startFinalize (routine : Routine) : FinalizeState :=
  ⟨false, "", routine.usage, routine.minParameters⟩

def finalizeRoutine (routine : Routine) (populateUsage : Bool) : Bool × Routine :=
  match finalizeLoop populateUsage routine.name 0 routine.parameters (startFinalize routine) with
  | (.error _, s) => (false, { routine with usage := s.usage, minParameters := s.minParameters })
  | (.ok (), s) =>
    let usage :=
      if populateUsage = true ∧ routine.parameters.length = 0 then
        some "As Is (Provide No Parameters)"
      else s.usage
    let minParameters :=
      if routine.parameters.length ≠ 0 ∧ s.minParameters = 0 then routine.parameters.length
      else s.minParameters
    (true, { routine with usage := usage, minParameters := minParameters })

def WellOrdered (params : List RoutineParameter) : Prop :=
  params.Pairwise fun p q => p.optional = true → q.optional = true

def mandatoryCount (params : List RoutineParameter) : Nat := params.countP fun p => !p.optional

/-- The routine with these parameters is accepted exactly if they are well ordered, with as many
arguments needed as there are mandatory ones. -/
structure FinalizesWell (routine : Routine) (populateUsage : Bool) : Prop where
  accepted : (finalizeRoutine routine populateUsage).1 = true ↔ WellOrdered routine.parameters
  minParameters : (finalizeRoutine routine populateUsage).1 = true →
    (finalizeRoutine routine populateUsage).2.minParameters = mandatoryCount routine.parameters

variable {populateUsage : Bool} {name : String} {i : Nat} {param : RoutineParameter}
  {params : List RoutineParameter} {s : FinalizeState} {routine : Routine}

@[simp] theorem addUsage_foundOpt : (addUsage populateUsage param s).foundOpt = s.foundOpt := by
  unfold addUsage
  split <;> rfl

@[simp] theorem addUsage_minParameters :
    (addUsage populateUsage param s).minParameters = s.minParameters := by
  unfold addUsage
  split <;> rfl

@[simp] theorem mandatoryCount_optional (h : param.optional = true) :
    mandatoryCount (param :: params) = mandatoryCount params := by
  simp [mandatoryCount, h]

@[simp] theorem mandatoryCount_mandatory (h : param.optional = false) :
    mandatoryCount (param :: params) = mandatoryCount params + 1 := by
  simp [mandatoryCount, h]

theorem foldl_addRoutineParameter (params : List RoutineParameter) (routine : Routine) :
    params.foldl addRoutineParameter routine =
      { routine with parameters := routine.parameters ++ params } := by
  induction params generalizing routine with
  | nil => simp
  | cons param params ih =>
    rw [List.foldl_cons, ih]
    simp [addRoutineParameter]

theorem mandatoryCount_eq_zero : mandatoryCount params = 0 ↔ ∀ p ∈ params, p.optional = true := by
  simp [mandatoryCount, List.countP_eq_zero]

theorem finalizeLoop_foundOpt (params : List RoutineParameter) (h : s.foundOpt = true) :
    ((finalizeLoop populateUsage name i params s).1 = .ok () ↔
        ∀ p ∈ params, p.optional = true) ∧
      (finalizeLoop populateUsage name i params s).2.minParameters = s.minParameters := by
  induction params generalizing i s with
  | nil => exact ⟨by simp [finalizeLoop], rfl⟩
  | cons param params ih =>
    rw [finalizeLoop, if_pos h, List.forall_mem_cons]
    cases hparam : param.optional with
    | false => simp
    | true =>
      obtain ⟨hok, hmin⟩ := @ih (i + 1) (addUsage populateUsage param s) (by simpa using h)
      rw [if_neg (by simp), hok, hmin]
      simp

theorem finalizeLoop_start (params : List RoutineParameter) (h : s.foundOpt = false) :
    ((finalizeLoop populateUsage name i params s).1 = .ok () ↔ WellOrdered params) ∧
      ((finalizeLoop populateUsage name i params s).1 = .ok () →
        (finalizeLoop populateUsage name i params s).2.minParameters =
          if ∀ p ∈ params, p.optional = false then s.minParameters
          else i + mandatoryCount params) := by
  induction params generalizing i s with
  | nil => exact ⟨by simp [finalizeLoop, WellOrdered], fun _ => by simp [finalizeLoop]⟩
  | cons param params ih =>
    rw [finalizeLoop, if_neg (by simp [h]), WellOrdered, List.pairwise_cons]
    cases hparam : param.optional with
    | true =>
      obtain ⟨hok, hmin⟩ := @finalizeLoop_foundOpt populateUsage name (i + 1)
        (addUsage populateUsage param { s with minParameters := i, foundOpt := true }) params
        (by simp)
      rw [if_pos rfl, hok, hmin]
      refine ⟨⟨fun hall => ⟨fun q hq _ => hall q hq, ?_⟩, fun hall q hq => hall.1 q hq rfl⟩, ?_⟩
      · exact List.pairwise_iff_forall_sublist.mpr fun {p q} hsub _ =>
          hall q (hsub.subset (by simp))
      · intro hall
        have hzero : mandatoryCount params = 0 := mandatoryCount_eq_zero.mpr hall
        rw [if_neg (by simp [hparam]), mandatoryCount_optional hparam, hzero]
        simp
    | false =>
      obtain ⟨hok, hmin⟩ := @ih (i + 1) (addUsage populateUsage param s) (by simpa using h)
      rw [if_neg (by simp)]
      refine ⟨hok.trans (by simp [WellOrdered]), fun haccepted => ?_⟩
      rw [hmin haccepted, mandatoryCount_mandatory hparam, addUsage_minParameters]
      refine if_congr (by simp [hparam]) rfl (by omega)

theorem finalizeRoutine_fst (routine : Routine) (populateUsage : Bool) :
    (finalizeRoutine routine populateUsage).1 = true ↔ WellOrdered routine.parameters := by
  have hstart := (@finalizeLoop_start populateUsage routine.name 0 (startFinalize routine)
    routine.parameters rfl).1
  rw [← hstart, finalizeRoutine]
  split
  · rename_i hloop
    simp [hloop]
  · rename_i hloop
    simp [hloop]

theorem finalizeRoutine_minParameters (hmade : routine.minParameters = 0)
    (h : WellOrdered routine.parameters) :
    (finalizeRoutine routine populateUsage).2.minParameters =
      if mandatoryCount routine.parameters = 0 then routine.parameters.length
      else mandatoryCount routine.parameters := by
  obtain ⟨hok, hmin⟩ := @finalizeLoop_start populateUsage routine.name 0 (startFinalize routine)
    routine.parameters rfl
  cases hloop : finalizeLoop populateUsage routine.name 0 routine.parameters
      (startFinalize routine) with
  | mk outcome after =>
    rw [hloop] at hok hmin
    obtain rfl : outcome = .ok () := hok.mpr h
    have hafter := hmin rfl
    have hresult : (finalizeRoutine routine populateUsage).2.minParameters =
        if routine.parameters.length ≠ 0 ∧ after.minParameters = 0 then routine.parameters.length
        else after.minParameters := by
      rw [finalizeRoutine, hloop]
    have hstart : (startFinalize routine).minParameters = 0 := hmade
    rw [hstart, Nat.zero_add] at hafter
    rw [hresult, hafter]
    by_cases hall : ∀ p ∈ routine.parameters, p.optional = false
    · have hcount : mandatoryCount routine.parameters = routine.parameters.length :=
        List.countP_eq_length.mpr fun p hp => by simp [hall p hp]
      rw [if_pos hall, hcount]
      split <;> split <;> omega
    · have hne : routine.parameters.length ≠ 0 := fun hzero => by
        rw [List.length_eq_zero_iff] at hzero
        exact hall (by simp [hzero])
      rw [if_neg hall]
      split <;> split <;> omega

/-- A routine from `MakeRoutine` is finalized well exactly if one of its parameters is mandatory
or it has none: a minimum of 0 is taken for one that was not set. -/
theorem finalizeRoutine_well_iff (name desc : String) (params : List RoutineParameter)
    (populateUsage : Bool) :
    FinalizesWell { makeRoutine name desc with parameters := params } populateUsage ↔
      params = [] ∨ ∃ p ∈ params, p.optional = false := by
  let routine : Routine := { makeRoutine name desc with parameters := params }
  have haccepted := finalizeRoutine_fst routine populateUsage
  have hmin := @finalizeRoutine_minParameters populateUsage routine rfl
  constructor
  · intro h
    by_contra hall
    have hoptional : ∀ p ∈ params, p.optional = true := fun p hp => by
      by_contra hp'
      exact hall (.inr ⟨p, hp, by simpa using hp'⟩)
    have hordered : WellOrdered params :=
      List.pairwise_of_forall_mem_list fun _ _ q hq _ => hoptional q hq
    have hcount := h.minParameters (haccepted.mpr hordered)
    have hzero : mandatoryCount params = 0 := mandatoryCount_eq_zero.mpr hoptional
    have hlength : params.length = 0 := by
      rw [hmin hordered, if_pos hzero] at hcount
      exact hcount.trans hzero
    exact hall (.inl (List.length_eq_zero_iff.mp hlength))
  · intro h
    refine ⟨haccepted, fun hok => ?_⟩
    rw [hmin (haccepted.mp hok)]
    by_cases hzero : mandatoryCount params = 0
    · have hempty : params = [] := by
        cases h with
        | inl hempty => exact hempty
        | inr hmandatory =>
          obtain ⟨p, hp, hoptional⟩ := hmandatory
          have := mandatoryCount_eq_zero.mp hzero p hp
          simp [hoptional] at this
      rw [if_pos hzero]
      simp [routine, hempty, mandatoryCount]
    · exact if_neg hzero

/-- A routine whose one parameter is optional is taken to need it. -/
theorem optional_needed : ¬ ∀ (name desc : String) (params : List RoutineParameter)
    (populateUsage : Bool),
    FinalizesWell { makeRoutine name desc with parameters := params } populateUsage := by
  intro h
  let param : RoutineParameter := ⟨.integer, "Size", "A size.", true, 512, none, false⟩
  have hmin := (h "Sample" "A sample." [param] false).minParameters (by decide)
  revert hmin
  decide

end Ych.RoutineLib
