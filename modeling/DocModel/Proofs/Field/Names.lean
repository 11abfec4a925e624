import DocModel.Proofs.Field.Compilation
import DocModel.Proofs.Path.Nameless
import DocModel.Proofs.Template.Occurrences

/-!
Which fields and options a data path can match. A name is tested before it is cleaned, and the target of an
option is not tested at all, so that some are accepted whose cleaned name is empty and no data path is.
-/

namespace DocModel.Field

open Template

/-- No template has a data path of this name. -/
def IsUnreachable (name : String) : Prop := ∀ nodes, name ∉ paths nodes

/-- Every cleaned name is a data path of some template, unless nothing is left of it. -/
theorem isUnreachable_clean_iff {name : String} :
    IsUnreachable (Path.clean name) ↔ Path.clean name = "" := by
  constructor
  · intro hpaths
    by_contra hne
    -- An index in front keeps the name from being bound or reserved.
    let path := String.ofList ('0' :: '.' :: name.toList)
    have hchars : path.toList = '0' :: '.' :: name.toList := String.toList_ofList
    have hkeyword : path ∉ Path.keywords := by
      have hplain : ∀ word ∈ Path.keywords, '.' ∉ word.toList := by decide
      intro hmem
      exact hplain path hmem (by simp [hchars])
    have hreserved : Path.isReserved path = false := by
      simp [Path.isReserved, Path.head, hchars, hkeyword]
    have hbinds : Scope.binds [] path = false := by
      have hengine : "0" ∉ Scope.engineNames := by decide
      have hhead : Scope.head path = "0" :=
        Scope.head_eq_iff.mpr ⟨'.' :: name.toList, hchars, by simp, by simp⟩
      simp [Scope.binds, hhead, hengine]
    have hfound : pathOfName? path = some (Path.clean name) :=
      pathOfName?_eq_some_iff.mpr
        ⟨hreserved, (Path.clean_index_cons name).symm ▸ hne, Path.clean_index_cons name⟩
    let nodes : List Node := [.output .none (.mk (.name path) [] false)]
    have hfindings : findings nodes = [.name path] := by
      simp [findings, nodes, walkNodes, walkNode, walkExpr, walkOperand, walkCalls, walkName, hbinds]
    refine hpaths nodes ?_
    simp [paths, hfindings, Finding.name?, hfound]
  · intro hempty nodes hmem
    obtain ⟨_, _, _, hpath⟩ := mem_paths_iff.mp hmem
    obtain ⟨_, hne, hclean⟩ := pathOfName?_eq_some_iff.mp hpath
    exact hne (hclean.trans hempty)

section Success

variable {d : Directive} {P : String → Prop}

theorem exists_compile_name_iff : (∃ field, compile d = .ok field ∧ P field.name) ↔
    ∃ rawName, d.firstPositional? = some rawName ∧ ¬ Text.IsBlankRun rawName.toList ∧
      P (Path.clean rawName) := by
  simp only [compile_eq_ok_iff, ne_eq, Text.trim_eq_nil_iff]
  constructor
  · rintro ⟨_, ⟨rawName, hfirst, hsolid, rfl⟩, hname⟩
    exact ⟨rawName, hfirst, hsolid, hname⟩
  · rintro ⟨rawName, hfirst, hsolid, hname⟩
    exact ⟨_, ⟨rawName, hfirst, hsolid, rfl⟩, hname⟩

theorem exists_compileOption_fieldName_iff :
    (∃ option, compileOption d = .ok option ∧ P option.fieldName) ↔
      ∃ name target, d.firstPositional? = some name ∧ name ≠ "" ∧ d.named? "for" = some target ∧
        P (Path.clean target) := by
  rw [compileOption]
  cases hname : d.firstPositional?.filter (· ≠ "") with
  | none =>
    have hempty : ∀ name, d.firstPositional? = some name → name = "" := by
      simpa [Option.filter_eq_none_iff] using hname
    constructor
    · rintro ⟨_, ⟨⟩, _⟩
    · rintro ⟨name, _, hfirst, hne, _⟩
      exact absurd (hempty name hfirst) hne
  | some name =>
    obtain ⟨hfirst, hne⟩ := Option.filter_eq_some_iff.mp hname
    cases htarget : d.named? "for" with
    | none =>
      constructor
      · rintro ⟨_, ⟨⟩, _⟩
      · rintro ⟨_, _, _, _, ⟨⟩, _⟩
    | some target =>
      constructor
      · rintro ⟨_, ⟨⟩, htargeted⟩
        exact ⟨name, target, hfirst, of_decide_eq_true hne, rfl, htargeted⟩
      · rintro ⟨_, _, _, _, ⟨⟩, htargeted⟩
        exact ⟨_, rfl, htargeted⟩

end Success

/-- A field or an option is accepted although no data path can ever match it exactly if its name or target
is made of dots, numbers, blanks and subscripts alone, where for a field the blanks must not be all. Those
are the accepted ones whose cleaned name is empty. -/
theorem compile_unreachable_iff (d : Directive) :
    ((∃ field, compile d = .ok field ∧ IsUnreachable field.name) ↔
        ∃ rawName, d.firstPositional? = some rawName ∧ ¬ Text.IsBlankRun rawName.toList ∧
          Path.IsNameless rawName) ∧
      ((∃ option, compileOption d = .ok option ∧ IsUnreachable option.fieldName) ↔
        ∃ name target, d.firstPositional? = some name ∧ name ≠ "" ∧ d.named? "for" = some target ∧
          Path.IsNameless target) ∧
      (∀ field, compile d = .ok field → (IsUnreachable field.name ↔ field.name = "")) ∧
      ∀ option, compileOption d = .ok option →
        (IsUnreachable option.fieldName ↔ option.fieldName = "") := by
  have hnameless (name : String) : IsUnreachable (Path.clean name) ↔ Path.IsNameless name :=
    isUnreachable_clean_iff.trans Path.clean_eq_empty_iff_isNameless
  refine ⟨?_, ?_, fun field hok => ?_, fun option hok => ?_⟩
  · simp only [exists_compile_name_iff, hnameless]
  · simp only [exists_compileOption_fieldName_iff, hnameless]
  · obtain ⟨rawName, _, hname⟩ := Option.map_eq_some_iff.mp (name_options_of_compile hok).1
    rw [← hname, isUnreachable_clean_iff]
  · obtain ⟨target, _, hname⟩ := Option.map_eq_some_iff.mp (fieldName_of_compileOption hok)
    rw [← hname, isUnreachable_clean_iff]

/-- A subscript is accepted as the name of a field, and dots and blanks as the target of an option. -/
theorem compile_subscript :
    Directive.parse "@field \"[0]\"" true = .ok (some ⟨"field", [.positional "[0]"]⟩) ∧
      (compile ⟨"field", [.positional "[0]"]⟩).toOption.map Field.name = some "" ∧
      Directive.parse "@option \"a\" for=\". .\"" true =
        .ok (some ⟨"option", [.positional "a", .named "for" ". ."]⟩) ∧
      (compileOption ⟨"option", [.positional "a", .named "for" ". ."]⟩).toOption.map
        FieldOption.fieldName = some "" := by
  decide +kernel

end DocModel.Field
