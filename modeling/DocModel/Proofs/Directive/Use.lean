import DocModel.FieldList
import DocModel.Proofs.Directive.RoundTrip
import DocModel.Proofs.Text.Split
import DocModel.Proofs.Traversal
import DocModel.Settings

/-!
Directives that use one module each. Behind other directives they add their modules to the settings,
and they declare neither fields nor options.
-/

namespace DocModel

/-- Whether a name stands for itself in a list with commas that is quoted. -/
structure IsListedName (name : String) : Prop where
  ne_empty : name ≠ ""
  no_quote : '"' ∉ name.toList
  no_comma : ',' ∉ name.toList
  trim_eq : Text.trim name.toList = name.toList

namespace Directive

/-- The text of a comment that uses one module. -/
def useText (name : String) : String := "@use \"" ++ name ++ "\""

/-- A directive that uses one module. -/
def use (name : String) : Directive := ⟨"use", [.positional name]⟩

theorem describe_use (name : String) : (use name).describe = useText name := by
  have hparam : (Param.positional name).describe = "\"" ++ (name ++ "\"") := by
    simp [Param.positional, Param.describe, Param.isPositional, String.append_assoc]
  have hopening : "@use " ++ "\"" = "@use \"" := by decide
  calc (use name).describe = "@use " ++ (Param.positional name).describe := rfl
    _ = "@use \"" ++ (name ++ "\"") := by rw [hparam, ← String.append_assoc, hopening]
    _ = useText name := (String.append_assoc ..).symm

theorem positionals_use (name : String) : (use name).positionals = [name] := by
  simp [positionals, use, Param.positional, Param.isPositional]

theorem parse_useText {name : String} (hname : '"' ∉ name.toList) (strict : Bool) :
    parse (useText name) strict = .ok (some (use name)) := by
  rw [← describe_use]
  have hblank : ("use".toList.all fun c => !Text.isBlank c) = true := by decide
  refine IsWritable.parse_describe ⟨show "use" ≠ "" by decide,
    fun c hc => by simpa using List.all_eq_true.mp hblank c hc, List.cons_ne_nil _ _, ?_⟩ strict
  intro p hp
  rw [List.mem_singleton.mp hp]
  exact ⟨hname, .inl rfl⟩

/-- Texts that use modules, behind other texts, add one directive each. -/
theorem parseAll_append_useText {texts names : List String} {strict : Bool}
    {directives : List Directive} (hok : parseAll texts strict = .ok directives)
    (hnames : ∀ name ∈ names, '"' ∉ name.toList) :
    parseAll (texts ++ names.map useText) strict = .ok (directives ++ names.map use) := by
  obtain ⟨found, hfound, hok⟩ := bind_eq_ok_iff.mp hok
  cases hok
  have hadded : (names.map useText).mapM (parse · strict) =
      .ok (names.map fun name => some (use name)) := by
    rw [List.mapM_map]
    exact mapM_eq_ok_map fun name hname => parse_useText (hnames name hname) strict
  rw [parseAll, List.mapM_append, hfound, hadded]
  simp [bind, Except.bind, pure, Except.pure]

end Directive

theorem Field.compileAll_append_use (directives : List Directive) (names : List String) :
    compileAll (directives ++ names.map Directive.use) = compileAll directives := by
  have hadded : (names.map Directive.use).mapM declare =
      .ok (names.map fun _ => Declared.nothing) := by
    rw [List.mapM_map]
    exact mapM_eq_ok_map fun name _ => rfl
  rw [compileAll, compileAll, List.mapM_append, hadded]
  cases directives.mapM declare with
  | error error => rfl
  | ok declared =>
    have hfields : (names.map fun _ => Declared.nothing).filterMap Declared.field? = [] := by
      simp [List.filterMap_eq_nil_iff, Declared.field?]
    have hoptions : (names.map fun _ => Declared.nothing).filterMap Declared.option? = [] := by
      simp [List.filterMap_eq_nil_iff, Declared.option?]
    simp only [bind, Except.bind, pure, Except.pure, List.filterMap_append, hfields, hoptions,
      List.append_nil]

namespace DocumentSettings

theorem splitNames_of_isListedName {name : String} (hname : IsListedName name) :
    splitNames name = [name] := by
  rw [splitNames, Text.split_of_not_mem hname.no_comma]
  simp [hname.trim_eq, hname.ne_empty]

theorem first?_append_use (directives : List Directive) (names : List String) {key : String}
    (hkey : key ≠ "use") :
    first? (directives ++ names.map Directive.use) key = first? directives key := by
  have hadded : (names.map Directive.use).find? (·.name == key) = none := by
    simp [List.find?_eq_none, Directive.use, hkey.symm]
  rw [first?, List.find?_append, hadded, Option.or_none, first?]

theorem usedModules_append_use (directives : List Directive) {names : List String}
    (hnames : ∀ name ∈ names, IsListedName name) :
    usedModules (directives ++ names.map Directive.use) = usedModules directives ++ names := by
  have hadded : usedModules (names.map Directive.use) = names := by
    induction names with
    | nil => rfl
    | cons name rest ih =>
      obtain ⟨hname, hrest⟩ := List.forall_mem_cons.mp hnames
      rw [usedModules] at ih ⊢
      rw [List.map_cons, List.filter_cons_of_pos (by rfl), List.flatMap_cons, List.flatMap_append,
        ih hrest, Directive.positionals_use, List.flatMap_singleton,
        splitNames_of_isListedName hname, List.singleton_append]
  rw [usedModules, List.filter_append, List.flatMap_append, List.flatMap_append, ← usedModules,
    ← usedModules, hadded]

/-- Directives that use modules, behind other directives, only add their modules to the settings. -/
theorem ofDirectives_append_use {directives : List Directive} {settings : DocumentSettings}
    (hok : ofDirectives directives = .ok settings) {names : List String}
    (hnames : ∀ name ∈ names, IsListedName name) :
    ofDirectives (directives ++ names.map Directive.use) =
      .ok { settings with modules := settings.modules ++ names } := by
  have hfirst : ∀ key ≠ "use", first? (directives ++ names.map Directive.use) key =
      first? directives key := fun _ hkey => first?_append_use directives names hkey
  obtain ⟨lineHeight, hlineHeight, hok⟩ := bind_eq_ok_iff.mp hok
  cases hok
  have hlineHeight' : lineHeight? (directives ++ names.map Directive.use) = .ok lineHeight := by
    rw [lineHeight?, hfirst "lineHeight" (by decide)]
    exact hlineHeight
  rw [ofDirectives, hlineHeight', usedModules_append_use directives hnames,
    hfirst "v" (by decide), hfirst "lang" (by decide), hfirst "title" (by decide),
    hfirst "timeZone" (by decide)]
  rfl

end DocumentSettings

end DocModel
