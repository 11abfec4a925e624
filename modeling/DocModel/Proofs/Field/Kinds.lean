import DocModel.Field
import DocModel.Proofs.Directive.Kinds
import DocModel.Proofs.Distinct

/-!
What a field takes from the parameters of its directive, by the kinds in which they are written. The
kinds are kept apart as long as no quoted value is one of the names that are looked up and no named
value in the first place is its own name.
-/

namespace DocModel

namespace Field

theorem compile_eq_error_iff {d : Directive} {error : ModelError} :
    compile d = .error error ↔ error = .missingFieldName d.describe ∧
      ∀ name, d.firstPositional? = some name → Text.trim name.toList = [] := by
  rw [compile]
  cases hname : d.firstPositional?.filter fun name => !(Text.trim name.toList).isEmpty with
  | none =>
    have hblank : ∀ name, d.firstPositional? = some name → Text.trim name.toList = [] := by
      simpa [Option.filter_eq_none_iff] using hname
    exact ⟨fun h => ⟨(Except.error.inj h).symm, hblank⟩, fun h => congrArg Except.error h.1.symm⟩
  | some name =>
    obtain ⟨hfirst, hsolid⟩ := Option.filter_eq_some_iff.mp hname
    refine ⟨nofun, fun h => ?_⟩
    simp [h.2 name hfirst] at hsolid

/-- The field that is made up of what is found under each name. -/
def ofLookUps (directiveName rawName : String) (named? : String → Option String) (required : Bool) :
    Field where
  type := if directiveName == groupDirective then .object
    else ((named? "type").map FieldType.ofName).getD .string
  name := Path.clean rawName
  label := named? "label"
  descr := named? "descr"
  hint := named? "hint"
  min := (named? "min").bind Bound.read?
  max := (named? "max").bind Bound.read?
  minLength := (named? "minLength").bind lengthOfText?
  maxLength := (named? "maxLength").bind lengthOfText?
  order := (named? "order").bind orderOfText?
  value := (named? "value").map valueOfText
  isRequired := required
  options := none
  directiveName := directiveName
  absoluteOrder := none

theorem compile_eq (d : Directive) : compile d =
    match d.firstPositional?.filter fun name => !(Text.trim name.toList).isEmpty with
    | none => .error (.missingFieldName d.describe)
    | some rawName => .ok (ofLookUps d.name rawName d.named? (d.flag "required")) :=
  rfl

/-- The field with a text in the place that the text is the name of, read as that place reads it. -/
def overwrite (v : String) (field : Field) : Field :=
  match v with
  | "type" => { field with type := if field.isGroup then .object else .custom v }
  | "label" => { field with label := some v }
  | "descr" => { field with descr := some v }
  | "hint" => { field with hint := some v }
  | "min" => { field with min := none }
  | "max" => { field with max := none }
  | "minLength" => { field with minLength := none }
  | "maxLength" => { field with maxLength := none }
  | "order" => { field with order := none }
  | "value" => { field with value := some (.str v) }
  | "required" => { field with isRequired := true }
  | _ => field

/-- The names of the bounds, the lengths and the order are no numbers, and `value` is a text. -/
theorem reads_of_names :
    Bound.read? "min" = none ∧ Bound.read? "max" = none ∧ lengthOfText? "minLength" = none ∧
      lengthOfText? "maxLength" = none ∧ orderOfText? "order" = none ∧
      valueOfText "value" = .str "value" := by
  have hdata : (Json.ofText? "value").isNone = true := by decide +kernel
  have hvalue : valueOfText "value" = .str "value" := by
    rw [valueOfText, Option.isNone_iff_eq_none.mp hdata, Option.getD_none]
  refine ⟨?_, ?_, ?_, ?_, ?_, hvalue⟩ <;> decide +kernel

theorem ofLookUps_overwrite (directiveName rawName : String) (named? : String → Option String)
    (required : Bool) (v : String) :
    ofLookUps directiveName rawName
        (fun key => if v = key then (some v).filter (· ≠ "") else named? key)
        (v == "required" || required) =
      (ofLookUps directiveName rawName named? required).overwrite v := by
  obtain ⟨hmin, hmax, hminLength, hmaxLength, horder, hvalue⟩ := reads_of_names
  have htype : FieldType.ofName "type" = .custom "type" := rfl
  -- Only the place that the text names looks it up.
  unfold overwrite
  split <;> simp_all [ofLookUps, isGroup, Option.filter_some]

end Field

namespace Directive

section Insertion

variable {name v : String} {first : Param} {earlier after : List Param}

/-- A quoted value behind the first parameter hides what is found under its text behind it. -/
theorem named?_insert_positional (key : String) :
    named? ⟨name, first :: (earlier ++ .positional v :: after)⟩ key =
      if v = key ∧ ∀ p ∈ earlier, p.name ≠ key then (some v).filter (· ≠ "")
      else named? ⟨name, first :: (earlier ++ after)⟩ key := by
  simp only [named?, List.tail_cons, List.find?_append]
  cases hearlier : earlier.find? (·.name == key) with
  | some p =>
    obtain ⟨hmem, hkey⟩ := of_find?_key_eq_some hearlier
    rw [if_neg fun h => h.2 p hmem hkey]
    rfl
  | none =>
    have hnone : ∀ p ∈ earlier, p.name ≠ key := by simpa using hearlier
    by_cases hv : v = key
    · subst hv
      rw [if_pos ⟨rfl, hnone⟩]
      simp [Param.positional]
    · rw [if_neg fun h => hv h.1]
      simp [Param.positional, hv]

theorem flag_insert_positional (key : String) :
    flag ⟨name, first :: (earlier ++ .positional v :: after)⟩ key =
      (v == key || flag ⟨name, first :: (earlier ++ after)⟩ key) := by
  simp [flag, Param.positional, Bool.or_left_comm]

end Insertion

/-- How the look-ups change when a quoted value is put in behind some parameters. -/
structure AddsQuoted (v : String) (before : List WrittenParam) (d d' : Directive) : Prop where
  name_eq : d'.name = d.name
  firstPositional?_eq : d'.firstPositional? = d.firstPositional?
  named?_eq : ∀ key, d'.named? key =
    if v = key ∧ ∀ w ∈ before.tail, w.key ≠ key then (some v).filter (· ≠ "") else d.named? key
  flag_eq : ∀ key, d'.flag key = (v == key || d.flag key)

theorem addsQuoted_map_param (name v : String) {before : List WrittenParam} (hbefore : before ≠ [])
    (after : List WrittenParam) :
    AddsQuoted v before ⟨name, (before ++ after).map WrittenParam.param⟩
      ⟨name, (before ++ .quoted v :: after).map WrittenParam.param⟩ := by
  obtain ⟨first, earlier, rfl⟩ := List.exists_cons_of_ne_nil hbefore
  simp only [List.cons_append, List.map_cons, List.map_append]
  refine ⟨rfl, rfl, fun key => ?_, flag_insert_positional⟩
  have hkeys : (∀ p ∈ earlier.map WrittenParam.param, p.name ≠ key) ↔ ∀ w ∈ earlier, w.key ≠ key := by
    simp
  rw [WrittenParam.param, named?_insert_positional]
  exact if_congr (and_congr Iff.rfl hkeys) rfl rfl

section Compile

variable {v : String} {before after : List WrittenParam} {d d' : Directive}

/-- Behind a parameter that is found under the same name, a quoted value changes nothing. -/
theorem AddsQuoted.toOption_compile_of_hidden (hadds : AddsQuoted v before d d')
    (hfrom : IsReadFrom d (before ++ after)) (hhidden : ∃ w ∈ before.tail, w.key = v) :
    (Field.compile d').toOption = (Field.compile d).toOption := by
  obtain ⟨w, hw, rfl⟩ := hhidden
  have hnamed : d'.named? = d.named? := by
    funext key
    rw [hadds.named?_eq, if_neg]
    rintro ⟨rfl, hnone⟩
    exact hnone w hw rfl
  have hpresent : d.flag w.key = true := by
    have hbefore : before ≠ [] := by
      rintro rfl
      cases hw
    have hmem : w ∈ (before ++ after).tail := by
      rw [List.tail_append_of_ne_nil hbefore]
      exact List.mem_append_left after hw
    exact (hfrom.flag_iff w.key).mpr (mem_iff_exists_key.mp ⟨w, hmem, rfl⟩)
  have hflag : d'.flag "required" = d.flag "required" := by
    rw [hadds.flag_eq]
    by_cases hkey : w.key = "required"
    · rw [← hkey, hpresent, Bool.or_true]
    · rw [beq_false_of_ne hkey, Bool.false_or]
  rw [Field.compile_eq, Field.compile_eq, hadds.name_eq, hadds.firstPositional?_eq, hnamed, hflag]
  cases d.firstPositional?.filter fun name => !(Text.trim name.toList).isEmpty <;> rfl

/-- Otherwise it takes the place that it names, if it names one. -/
theorem AddsQuoted.toOption_compile (hadds : AddsQuoted v before d d')
    (hnew : ∀ w ∈ before.tail, w.key ≠ v) :
    (Field.compile d').toOption = (Field.compile d).toOption.map (Field.overwrite v) := by
  have hnamed : d'.named? = fun key =>
      if v = key then (some v).filter (· ≠ "") else d.named? key := by
    funext key
    rw [hadds.named?_eq]
    refine if_congr (and_iff_left_of_imp ?_) rfl rfl
    rintro rfl
    exact hnew
  rw [Field.compile_eq, Field.compile_eq, hadds.name_eq, hadds.firstPositional?_eq, hnamed,
    hadds.flag_eq]
  cases d.firstPositional?.filter fun name => !(Text.trim name.toList).isEmpty with
  | none => rfl
  | some rawName => exact congrArg some (Field.ofLookUps_overwrite ..)

end Compile

/-- What strict reading keeps of the kinds in which a text is written. The text settles them, and each
look-up in the directive follows from them; but quoted values and named values that are their own names
are taken for one another, and quoted values are found under their texts. A field is missing its name
exactly if no such value stands first, or a blank one. A quoted value can be put in behind any
parameter. It changes the field only if it is the first one behind the first parameter that is found
under its text, and then only in the place that it names. -/
theorem kinds_of_parse {text : String} {d : Directive} (hread : parse text true = .ok (some d)) :
    ∃ written, (∀ other, IsWrittenAs text d.name other ↔ other = written) ∧ IsReadFrom d written ∧
      (∀ error, Field.compile d = .error error ↔ error = .missingFieldName d.describe ∧
        ∀ v, written.head? = some (.quoted v) ∨ written.head? = some (.named v v) →
          Text.trim v.toList = []) ∧
      ∀ before after v, written = before ++ after → before ≠ [] → '"' ∉ v.toList →
        (∃ front back, Text.trim text.toList = front ++ back ∧
          IsWrittenAs (String.ofList (front ++ ' ' :: '"' :: (v.toList ++ '"' :: back))) d.name
            (before ++ .quoted v :: after)) ∧
        ∀ text', IsWrittenAs text' d.name (before ++ .quoted v :: after) →
          ∃ d', parse text' true = .ok (some d') ∧ AddsQuoted v before d d' ∧
            ((∃ w ∈ before.tail, w.key = v) →
              (Field.compile d').toOption = (Field.compile d).toOption) ∧
            ((∀ w ∈ before.tail, w.key ≠ v) →
              (Field.compile d').toOption =
                (Field.compile d).toOption.map (Field.overwrite v)) := by
  obtain ⟨written, hwritten, hd⟩ := exists_isWrittenAs_of_parse hread
  have hfrom : IsReadFrom d written := hd ▸ isReadFrom_map_param d.name written
  refine ⟨written, fun other => ⟨hwritten.unique, fun h => h ▸ hwritten⟩, hfrom, fun error => ?_, ?_⟩
  · simp only [Field.compile_eq_error_iff, hfrom.firstPositional?_iff]
  · rintro before after v rfl hbefore hvalue
    refine ⟨hwritten.exists_insert_quoted hbefore hvalue, fun text' htext' => ?_⟩
    have hadds := addsQuoted_map_param d.name v hbefore after
    rw [← hd] at hadds
    exact ⟨_, htext'.parse_eq, hadds, hadds.toOption_compile_of_hidden hfrom, hadds.toOption_compile⟩

/-- A field with a label. -/
def namedField : String := "@field \"data.x\" label=\"Name\""

theorem spelled_label (value : List Char) (hvalue : '"' ∉ value) :
    Spelled ("label=\"".toList ++ (value ++ ['"'])) [.named "label" (String.ofList value)] [] := by
  have hname : "abel".toList.all isNameChar = true := by decide
  exact @Spelled.named 'l' "abel".toList value [] [] [] (by decide) (List.all_eq_true.mp hname)
    hvalue .done

/-- The quoted word `label` in front of a label hides it. -/
theorem kinds_of_parse_namedField :
    parse namedField true = .ok (some ⟨"field", [.positional "data.x", .named "label" "Name"]⟩) ∧
      ∃ front back, Text.trim namedField.toList = front ++ back ∧
        ∃ d, parse (String.ofList (front ++ ' ' :: '"' :: ("label".toList ++ '"' :: back))) true =
            .ok (some d) ∧
          (Field.compile d).toOption.map Field.label = some (some "label") := by
  have hlabel := spelled_label "Name".toList (by decide)
  have hnamed : IsWrittenAs namedField "field" [.quoted "data.x", .named "label" "Name"] :=
    ⟨"\"data.x\" label=\"Name\"".toList, by decide +kernel,
      @Spelled.quoted "data.x".toList _ _ _ (by decide) (.blank (by decide) hlabel)⟩
  have hread := hnamed.parse_eq
  obtain ⟨written, hwritten, _, _, hinsert⟩ := kinds_of_parse hread
  obtain rfl := (hwritten _).mp hnamed
  obtain ⟨⟨front, back, hparts, htext⟩, hadded⟩ :=
    hinsert [.quoted "data.x"] [.named "label" "Name"] "label" rfl nofun (by decide)
  obtain ⟨d, hd, _, _, hfield⟩ := hadded _ htext
  refine ⟨hread, front, back, hparts, d, hd, ?_⟩
  rw [hfield nofun]
  rfl

/-- A label in the place of the field's name is taken for the name, and a quoted word is taken for the
flag. -/
theorem kinds_confused :
    (IsWrittenAs "@field label=\"label\"" "field" [.named "label" "label"] ∧
        ∃ d, parse "@field label=\"label\"" true = .ok (some d) ∧
          d.firstPositional? = some "label" ∧ d.positionals = ["label"] ∧
          (Field.compile d).toOption.map Field.name = some "label") ∧
      (IsWrittenAs "@field \"data.x\"" "field" [.quoted "data.x"] ∧
        ∃ d, parse "@field \"data.x\"" true = .ok (some d) ∧
          (Field.compile d).toOption.map Field.isRequired = some false) ∧
      IsWrittenAs "@field \"data.x\" \"required\"" "field" [.quoted "data.x", .quoted "required"] ∧
        ∃ d, parse "@field \"data.x\" \"required\"" true = .ok (some d) ∧ d.flag "required" = true ∧
          (Field.compile d).toOption.map Field.isRequired = some true := by
  have hlabel : IsWrittenAs "@field label=\"label\"" "field" [.named "label" "label"] :=
    ⟨"label=\"label\"".toList, by decide +kernel, spelled_label "label".toList (by decide)⟩
  have hplain : IsWrittenAs "@field \"data.x\"" "field" [.quoted "data.x"] :=
    ⟨"\"data.x\"".toList, by decide +kernel, @Spelled.quoted "data.x".toList _ _ _ (by decide) .done⟩
  have hquoted : IsWrittenAs "@field \"data.x\" \"required\"" "field"
      [.quoted "data.x", .quoted "required"] :=
    ⟨"\"data.x\" \"required\"".toList, by decide +kernel,
      @Spelled.quoted "data.x".toList _ _ _ (by decide)
        (.blank (by decide) (@Spelled.quoted "required".toList _ _ _ (by decide) .done))⟩
  exact ⟨⟨hlabel, _, hlabel.parse_eq, rfl, rfl, by decide +kernel⟩,
    ⟨hplain, _, hplain.parse_eq, rfl⟩, hquoted, _, hquoted.parse_eq, rfl, rfl⟩

end Directive

end DocModel
