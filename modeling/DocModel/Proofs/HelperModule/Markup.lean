import DocModel.HelperModule.Put
import DocModel.Proofs.Json.Entries
import DocModel.Proofs.Text.Markup
import DocModel.Proofs.Validation.Constraints

/-!
The markup of the coloured form. Whatever is put in, the only tags of it are those of its one element, and
its class and content stand for the colour class and for the text that the plain form yields.
-/

namespace DocModel.Put

open Validation

/-- What is displayed for a value: its text when it is given, else that of a fallback that is given, else
nothing. -/
inductive Displays (value : Json) (fallback : Option Json) : String → Prop where
  | value (hvalue : Json.isPresent (some value) = true) : Displays value fallback (textOf value)
  | fallback {other : Json} (hvalue : Json.isPresent (some value) = false)
      (hfallback : fallback = some other) (hother : Json.isPresent (some other) = true) :
      Displays value fallback (textOf other)
  | nothing (hvalue : Json.isPresent (some value) = false)
      (hfallback : Json.isPresent fallback = false) : Displays value fallback ""

theorem displayText?_eq (value : Json) :
    displayText? value = if Json.isPresent (some value) then some (textOf value) else none := by
  cases value with
  | str s => by_cases hs : s = "" <;> simp [displayText?, Json.isPresent, textOf, hs]
  | _ => rfl

theorem displays_displayed (value : Json) (args : Entries Json) :
    Displays value (args.get? "fallback") (displayed value args) := by
  rw [displayed, displayText?_eq]
  cases hvalue : Json.isPresent (some value) with
  | true => exact .value hvalue
  | false =>
    cases hfallback : args.get? "fallback" with
    | none => exact .nothing hvalue rfl
    | some other =>
      rw [Option.bind_some, displayText?_eq]
      cases hother : Json.isPresent (some other) with
      | true => exact .fallback hvalue rfl hother
      | false => exact .nothing hvalue hother

section Registered

variable (engine : Engine) (colorClass : String)

theorem filter?_addTo {name : String} {filter : Filter}
    (hfilter : Entries.get? (helperModule colorClass).filters name = some filter) :
    ((helperModule colorClass).addTo engine).filter? name = .ok filter := by
  have hnames : (helperModule colorClass).filters.map (·.1) = ["put", "put_no_color"] := rfl
  have hnodup : ((helperModule colorClass).filters.map (·.1)).Nodup := by
    rw [hnames]
    decide
  have hget := Entries.get?_overlay engine.filters hnodup name
  rw [hfilter, Option.some_or] at hget
  simp only [Engine.filter?, HelperModule.addTo, Engine.extend, hget]

end Registered

/-- In every engine with the module, the filter `put` is the one that is not escaped any more, and what it
yields is one element. Neither its class nor its content holds an angle bracket or a quotation mark, they are
read as the colour class and as the text that `put_no_color` yields, which is escaped as any other text, and
that text is what is displayed for the value. -/
theorem colored_is_one_element (engine : Engine) (colorClass : String) (value : Json)
    (args : Entries Json) :
    ∃ colored plain,
      ((helperModule colorClass).addTo engine).filter? "put" = .ok colored ∧
      ((helperModule colorClass).addTo engine).filter? "put_no_color" = .ok plain ∧
      colored.yieldsMarkup = true ∧ plain.yieldsMarkup = false ∧
      ∃ markupClass content text,
        colored.apply value args =
          .ok (.str ("<span class=\"" ++ markupClass ++ "\">" ++ content ++ "</span>")) ∧
        plain.apply value args = .ok (.str text) ∧
        (∀ c ∈ ['<', '>', '"', '\''], c ∉ markupClass.toList ∧ c ∉ content.toList) ∧
        Text.unescapeMarkup markupClass = colorClass ∧ Text.unescapeMarkup content = text ∧
        Displays value (args.get? "fallback") text := by
  refine ⟨coloredFilter colorClass, plainFilter, filter?_addTo engine colorClass rfl,
    filter?_addTo engine colorClass rfl, rfl, rfl, Text.escapeMarkup colorClass,
    Text.escapeMarkup (displayed value args), displayed value args, rfl, rfl, ?_,
    Text.unescapeMarkup_escapeMarkup _, Text.unescapeMarkup_escapeMarkup _,
    displays_displayed value args⟩
  intro c hc
  have hmarkup : c ∈ ['<', '>', '"', '\'', '/'] := List.mem_append_left ['/'] hc
  exact ⟨Text.not_mem_escapeMarkup hmarkup _, Text.not_mem_escapeMarkup hmarkup _⟩

/-- A fallback with a tag and an entity in it is put in as text. -/
example : colored "a\"b" (displayed (.str "") [("fallback", .str "<b>&amp;")]) =
    "<span class=\"a&quot;b\">&lt;b&gt;&amp;amp;</span>" := by
  decide +kernel

end DocModel.Put
