import DocModel.Proofs.Field.Kinds
import DocModel.Proofs.Field.Places
import Mathlib.Data.List.Forall2

/-!
The fields and options of a list of directives. Only the directives that declare a field, a group or an
option count, and the first of them that does not compile is the failure of all. Fields and options are
compiled apart from each other, and a field gets the options whose targets are its path.
-/

namespace DocModel.Field

/-- Whether a directive declares a field or a group of fields. -/
def declaresField (d : Directive) : Bool :=
  d.name == fieldDirective || d.name == groupDirective

/-- Whether a directive declares an option. -/
def declaresOption (d : Directive) : Bool := d.name == optionDirective

/-- A directive declares something and does not compile. -/
def FailsWith (d : Directive) (error : ModelError) : Prop :=
  declaresField d = true ∧ compile d = .error error ∨
    declaresOption d = true ∧ compileOption d = .error error

section Declare

variable {d : Directive}

theorem declaresOption_of_declaresField (hfield : declaresField d = true) :
    declaresOption d = false := by
  have hname : d.name = fieldDirective ∨ d.name = groupDirective := by
    simpa [declaresField] using hfield
  rcases hname with hname | hname <;>
    simp [declaresOption, hname, fieldDirective, groupDirective, optionDirective]

theorem declaresField_of_declaresOption (hoption : declaresOption d = true) :
    declaresField d = false := by
  by_contra h
  rw [declaresOption_of_declaresField (by simpa using h)] at hoption
  cases hoption

theorem declare_of_declaresField (hfield : declaresField d = true) :
    declare d = (compile d).map .field := by
  rw [declare, if_pos (by simpa [declaresField] using hfield)]

theorem declare_of_declaresOption (hoption : declaresOption d = true) :
    declare d = (compileOption d).map .option := by
  have hfield := declaresField_of_declaresOption hoption
  rw [declare, if_neg (by simpa [declaresField] using hfield),
    if_pos (by simpa [declaresOption] using hoption)]

theorem declare_of_other (hfield : declaresField d = false) (hoption : declaresOption d = false) :
    declare d = .ok .nothing := by
  rw [declare, if_neg (by simpa [declaresField] using hfield),
    if_neg (by simpa [declaresOption] using hoption)]

theorem declare_eq_error_iff {error : ModelError} : declare d = .error error ↔ FailsWith d error := by
  rw [FailsWith]
  cases hfield : declaresField d with
  | true =>
    rw [declare_of_declaresField hfield, map_eq_error_iff, declaresOption_of_declaresField hfield]
    simp
  | false =>
    cases hoption : declaresOption d with
    | true =>
      rw [declare_of_declaresOption hoption, map_eq_error_iff]
      simp
    | false => simp [declare_of_other hfield hoption]

end Declare

/-- What some directives declare, taken apart, is what those of each kind compile to. -/
theorem compiled_of_mapM_declare {directives : List Directive} {declared : List Declared}
    (hok : directives.mapM declare = .ok declared) :
    (directives.filter declaresField).mapM compile = .ok (declared.filterMap Declared.field?) ∧
      (directives.filter declaresOption).mapM compileOption =
        .ok (declared.filterMap Declared.option?) := by
  induction directives generalizing declared with
  | nil =>
    cases hok
    exact ⟨rfl, rfl⟩
  | cons d rest ih =>
    obtain ⟨first, more, hfirst, hmore, rfl⟩ := mapM_cons_eq_ok_iff.mp hok
    obtain ⟨hfields, hoptions⟩ := ih hmore
    cases hfield : declaresField d with
    | true =>
      have hoption := declaresOption_of_declaresField hfield
      rw [declare_of_declaresField hfield] at hfirst
      obtain ⟨field, hcompiled, rfl⟩ := map_eq_ok_iff.mp hfirst
      rw [List.filter_cons_of_pos hfield, List.filter_cons_of_neg (by simp [hoption])]
      exact ⟨mapM_cons_eq_ok_iff.mpr ⟨field, _, hcompiled, hfields, rfl⟩, hoptions⟩
    | false =>
      rw [List.filter_cons_of_neg (by simp [hfield])]
      cases hoption : declaresOption d with
      | true =>
        rw [declare_of_declaresOption hoption] at hfirst
        obtain ⟨option, hcompiled, rfl⟩ := map_eq_ok_iff.mp hfirst
        rw [List.filter_cons_of_pos hoption]
        exact ⟨hfields, mapM_cons_eq_ok_iff.mpr ⟨option, _, hcompiled, hoptions, rfl⟩⟩
      | false =>
        rw [declare_of_other hfield hoption] at hfirst
        cases hfirst
        rw [List.filter_cons_of_neg (by simp [hoption])]
        exact ⟨hfields, hoptions⟩

/-- Where the directives of each kind compile, all directives do. -/
theorem exists_mapM_declare {directives : List Directive} {compiled : List Field}
    {options : List FieldOption}
    (hfields : (directives.filter declaresField).mapM compile = .ok compiled)
    (hoptions : (directives.filter declaresOption).mapM compileOption = .ok options) :
    ∃ declared, directives.mapM declare = .ok declared := by
  cases hresult : directives.mapM declare with
  | ok declared => exact ⟨declared, rfl⟩
  | error error =>
    obtain ⟨before, d, behind, rfl, _, hfails⟩ := mapM_eq_error_iff.mp hresult
    have hmem : d ∈ before ++ d :: behind := List.mem_append_right before List.mem_cons_self
    rcases declare_eq_error_iff.mp hfails with ⟨hfield, hcompile⟩ | ⟨hoption, hcompile⟩
    · obtain ⟨field, hok⟩ := exists_of_mapM_eq_ok hfields d (List.mem_filter.mpr ⟨hmem, hfield⟩)
      rw [hcompile] at hok
      cases hok
    · obtain ⟨option, hok⟩ := exists_of_mapM_eq_ok hoptions d (List.mem_filter.mpr ⟨hmem, hoption⟩)
      rw [hcompile] at hok
      cases hok

section Compile

variable {d : Directive}

theorem compile_eq_ok_iff {field : Field} : compile d = .ok field ↔
    ∃ rawName, d.firstPositional? = some rawName ∧ Text.trim rawName.toList ≠ [] ∧
      field = ofLookUps d.name rawName d.named? (d.flag "required") := by
  rw [compile_eq]
  cases hname : d.firstPositional?.filter fun name => !(Text.trim name.toList).isEmpty with
  | none =>
    have hblank : ∀ name, d.firstPositional? = some name → Text.trim name.toList = [] := by
      simpa [Option.filter_eq_none_iff] using hname
    exact iff_of_false nofun fun ⟨rawName, hfirst, hsolid, _⟩ => hsolid (hblank rawName hfirst)
  | some rawName =>
    obtain ⟨hfirst, hsolid⟩ := Option.filter_eq_some_iff.mp hname
    constructor
    · rintro ⟨⟩
      exact ⟨rawName, hfirst, by simpa using hsolid, rfl⟩
    · rintro ⟨other, hother, _, rfl⟩
      rw [hfirst] at hother
      cases hother
      rfl

/-- A field has the cleaned form of its directive's name, and no options yet. -/
theorem name_options_of_compile {field : Field} (hok : compile d = .ok field) :
    d.firstPositional?.map Path.clean = some field.name ∧ field.options = none := by
  obtain ⟨rawName, hfirst, _, rfl⟩ := compile_eq_ok_iff.mp hok
  rw [hfirst]
  exact ⟨rfl, rfl⟩

/-- An option has the cleaned form of its directive's target. -/
theorem fieldName_of_compileOption {option : FieldOption} (hok : compileOption d = .ok option) :
    (d.named? "for").map Path.clean = some option.fieldName := by
  rw [compileOption] at hok
  split at hok
  · cases hok
  · split at hok
    · cases hok
    · next htarget =>
      cases hok
      rw [htarget]
      rfl

end Compile

/-- The options for the path of a field, if there are any. -/
def optionsFor (options : List FieldOption) (name : String) : Option (List FieldOption) :=
  if ∀ option ∈ options, option.fieldName ≠ name then none
  else some (options.filter fun option => option.fieldName = name)

theorem withOptions_eq_ite (options : List FieldOption) (field : Field) :
    withOptions options field =
      if ∀ option ∈ options, option.fieldName ≠ field.name then field
      else { field with options := some (options.filter fun option => option.fieldName = field.name) } := by
  have hfilter : options.filter (·.fieldName == field.name) =
      options.filter fun option => option.fieldName = field.name :=
    List.filter_congr fun option _ => by rw [Bool.beq_eq_decide_eq]
  rw [withOptions, hfilter]
  split
  · next hnone => rw [if_pos (by simpa using hnone)]
  · next hsome => rw [if_neg (by simpa using hsome)]

theorem placedFrom_eq_mapIdx (start : Nat) (fields : List Field) :
    placedFrom start fields =
      fields.mapIdx fun place field => { field with absoluteOrder := some (start + place) } := by
  induction fields generalizing start with
  | nil => rfl
  | cons field rest ih =>
    rw [placedFrom, ih, List.mapIdx_cons]
    simp only [Nat.add_zero, Nat.add_assoc, Nat.add_comm 1]

/-- Some compiled fields with their options and places. -/
def finished (options : List FieldOption) (compiled : List Field) : List Field :=
  compiled.mapIdx fun place field =>
    { field with options := optionsFor options field.name, absoluteOrder := some place }

theorem applyAbsoluteOrder_applyOptions {options : List FieldOption} {compiled : List Field}
    (hnone : ∀ field ∈ compiled, field.options = none) :
    applyAbsoluteOrder (applyOptions options compiled) = finished options compiled := by
  have hoptions : applyOptions options compiled =
      compiled.map fun field => { field with options := optionsFor options field.name } := by
    refine List.map_congr_left fun field hfield => ?_
    rw [withOptions_eq_ite, optionsFor]
    split
    · rw [← hnone field hfield]
    · rfl
  rw [applyAbsoluteOrder, placedFrom_eq_mapIdx, hoptions, List.mapIdx_eq_iff]
  intro place
  rw [finished, List.getElem?_mapIdx, List.getElem?_map, Option.map_map]
  simp only [Function.comp_def, Nat.zero_add]

section CompileAll

variable {directives : List Directive}

theorem compileAll_eq (directives : List Directive) :
    compileAll directives = (directives.mapM declare).map fun declared =>
      (applyAbsoluteOrder (applyOptions (declared.filterMap Declared.option?)
        (declared.filterMap Declared.field?)), declared.filterMap Declared.option?) := by
  rw [compileAll]
  cases directives.mapM declare <;> rfl

/-- The first directive that does not compile is the failure of all. -/
theorem compileAll_eq_error_iff {error : ModelError} :
    compileAll directives = .error error ↔
      ∃ before d behind, directives = before ++ d :: behind ∧
        (∀ earlier ∈ before, ∀ e, ¬ FailsWith earlier e) ∧ FailsWith d error := by
  have hcompiles (d : Directive) :
      (∃ declared, declare d = .ok declared) ↔ ∀ e, ¬ FailsWith d e := by
    simp only [← declare_eq_error_iff]
    cases declare d <;> simp
  rw [compileAll_eq, map_eq_error_iff, mapM_eq_error_iff]
  simp only [hcompiles, declare_eq_error_iff]

theorem options_of_mapM_compile {compiled : List Field}
    (hok : directives.mapM compile = .ok compiled) : ∀ field ∈ compiled, field.options = none := by
  induction directives generalizing compiled with
  | nil =>
    obtain rfl : [] = compiled := Except.ok.inj hok
    exact List.forall_mem_nil _
  | cons d rest ih =>
    obtain ⟨first, more, hfirst, hmore, rfl⟩ := mapM_cons_eq_ok_iff.mp hok
    exact List.forall_mem_cons.mpr ⟨(name_options_of_compile hfirst).2, ih hmore⟩

/-- The kinds of directives are compiled apart from each other. -/
theorem compileAll_eq_ok_iff {fields : List Field} {options : List FieldOption} :
    compileAll directives = .ok (fields, options) ↔
      ∃ compiled, (directives.filter declaresField).mapM compile = .ok compiled ∧
        (directives.filter declaresOption).mapM compileOption = .ok options ∧
        fields = finished options compiled := by
  rw [compileAll_eq, map_eq_ok_iff]
  constructor
  · rintro ⟨declared, hdeclared, hresult⟩
    obtain ⟨hfields, hoptions⟩ := compiled_of_mapM_declare hdeclared
    cases hresult
    exact ⟨_, hfields, hoptions, applyAbsoluteOrder_applyOptions (options_of_mapM_compile hfields)⟩
  · rintro ⟨compiled, hfields, hoptions, rfl⟩
    obtain ⟨declared, hdeclared⟩ := exists_mapM_declare hfields hoptions
    obtain ⟨hfields', hoptions'⟩ := compiled_of_mapM_declare hdeclared
    obtain rfl := Except.ok.inj (hfields.symm.trans hfields')
    obtain rfl := Except.ok.inj (hoptions.symm.trans hoptions')
    exact ⟨declared, hdeclared,
      by rw [applyAbsoluteOrder_applyOptions (options_of_mapM_compile hfields)]⟩

end CompileAll

/-- Two lists of directives declare the same fields and groups in the same order, and the same options in
the same order. Options may stand elsewhere among the fields, and there may be other directives. -/
structure SameDeclarations (directives others : List Directive) : Prop where
  fields : directives.filter declaresField = others.filter declaresField
  options : directives.filter declaresOption = others.filter declaresOption

theorem sameDeclarations_insert {d : Directive} (hfield : declaresField d = false)
    (hoption : declaresOption d = false) (before behind : List Directive) :
    SameDeclarations (before ++ d :: behind) (before ++ behind) := by
  constructor <;> simp [hfield, hoption]

theorem sameDeclarations_swap {field option : Directive} (hfield : declaresField field = true)
    (hoption : declaresOption option = true) (before behind : List Directive) :
    SameDeclarations (before ++ option :: field :: behind) (before ++ field :: option :: behind) := by
  have hnoOption := declaresOption_of_declaresField hfield
  have hnoField := declaresField_of_declaresOption hoption
  constructor <;> simp [hfield, hoption, hnoOption, hnoField]

theorem SameDeclarations.compileAll_eq_ok_iff {directives others : List Directive}
    (hsame : SameDeclarations directives others) {result : List Field × List FieldOption} :
    compileAll directives = .ok result ↔ compileAll others = .ok result := by
  obtain ⟨fields, options⟩ := result
  rw [Field.compileAll_eq_ok_iff, Field.compileAll_eq_ok_iff, hsame.fields, hsame.options]

/-- What a further list of options makes of a field. It takes the place of the options of a field that one
of them is for, and leaves any other field as it is. -/
inductive Retargeted (more : List FieldOption) (field : Field) : Field → Prop where
  | replaced (htarget : ∃ option ∈ more, option.fieldName = field.name) :
      Retargeted more field
        { field with options := some (more.filter fun option => option.fieldName = field.name) }
  | kept (htarget : ∀ option ∈ more, option.fieldName ≠ field.name) : Retargeted more field field

theorem retargeted_withOptions (more : List FieldOption) (field : Field) :
    Retargeted more field (withOptions more field) := by
  rw [withOptions_eq_ite]
  split
  · next hnone => exact .kept hnone
  · next hsome => exact .replaced (by simpa using hsome)

/-- Directives compile unless one that declares a field, a group or an option does not, and then as the
first of these fails. Where they do, the fields are the compiled fields and groups in order, each with its
place and with the options whose cleaned target is its cleaned name, and the options are the compiled
options in order. So neither directives of other names nor the places of the options among the fields
matter to the result. A further list of options replaces those of the fields that it targets, and leaves
every other field as it was. -/
theorem compileAll_by_kind (directives : List Directive) :
    (∀ error, compileAll directives = .error error ↔
      ∃ before d behind, directives = before ++ d :: behind ∧
        (∀ earlier ∈ before, ∀ e, ¬ FailsWith earlier e) ∧ FailsWith d error) ∧
    (∀ fields options, compileAll directives = .ok (fields, options) ↔
      ∃ compiled, (directives.filter declaresField).mapM compile = .ok compiled ∧
        (directives.filter declaresOption).mapM compileOption = .ok options ∧
        fields = compiled.mapIdx fun place field =>
          { field with options := optionsFor options field.name, absoluteOrder := some place }) ∧
    (∀ d field, compile d = .ok field → d.firstPositional?.map Path.clean = some field.name) ∧
    (∀ d option, compileOption d = .ok option →
      (d.named? "for").map Path.clean = some option.fieldName) ∧
    (∀ others, SameDeclarations directives others → ∀ result,
      compileAll directives = .ok result ↔ compileAll others = .ok result) ∧
    (∀ before d behind, declaresField d = false → declaresOption d = false →
      SameDeclarations (before ++ d :: behind) (before ++ behind)) ∧
    (∀ before field option behind, declaresField field = true → declaresOption option = true →
      SameDeclarations (before ++ option :: field :: behind) (before ++ field :: option :: behind)) ∧
    ∀ more fields, List.Forall₂ (Retargeted more) fields (applyOptions more fields) := by
  refine ⟨fun _ => compileAll_eq_error_iff, fun _ _ => compileAll_eq_ok_iff,
    fun _ _ hok => (name_options_of_compile hok).1, fun _ _ => fieldName_of_compileOption,
    fun _ hsame _ => hsame.compileAll_eq_ok_iff,
    fun before _ behind hfield hoption => sameDeclarations_insert hfield hoption before behind,
    fun before _ _ behind hfield hoption => sameDeclarations_swap hfield hoption before behind,
    fun more fields => ?_⟩
  rw [applyOptions, List.forall₂_map_right_iff]
  exact List.forall₂_same.mpr fun field _ => retargeted_withOptions more field

end DocModel.Field
