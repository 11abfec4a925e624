import DocModel.Proofs.Directive.Scan
import DocModel.Proofs.Traversal

/-!
Strict and lenient reading of the same texts. Where strict reading succeeds, lenient reading yields the
same; where it fails, lenient reading skips the text if it is malformed, and otherwise drops its bad
tokens.
-/

namespace DocModel.Directive

/-- The text of a bad token. -/
def Token.bad? : Token → Option String
  | .param _ => none
  | .bad text => some text

/-- Strict reading of tokens fails at the first one that lenient reading drops. -/
theorem strictParams_eq (text : String) (found : List Token) :
    strictParams text found =
      match (found.filterMap Token.bad?).head? with
      | none => .ok (lenientParams found)
      | some token => .error (.badToken token text) := by
  induction found with
  | nil => rfl
  | cons first rest ih =>
    cases first with
    | bad token => rfl
    | param p =>
      rw [strictParams, ih, List.filterMap_cons_none rfl]
      cases (rest.filterMap Token.bad?).head? <;> rfl

/-- How lenient reading of a text follows from strict reading of it. -/
structure FollowsStrict (text : String) : Prop where
  /-- What strict reading yields is what lenient reading yields. -/
  of_ok : ∀ read, parse text true = .ok read → parse text false = .ok read
  /-- A malformed text is skipped. -/
  of_malformed : ∀ directive, parse text true = .error (.malformedDirective directive) →
    parse text false = .ok none
  /-- The bad tokens of a text are dropped. The first of them is the one that strict reading names. -/
  of_badToken : ∀ token directive, parse text true = .error (.badToken token directive) →
    ∃ name params found, header? (Text.trim text.toList) = some (name, params) ∧
      Scanned params found ∧ (found.filterMap Token.bad?).head? = some token ∧
      parse text false = .ok (some ⟨String.ofList name, lenientParams found⟩)
  /-- Strict reading fails in no other way. -/
  of_error : ∀ error, parse text true = .error error →
    error = .malformedDirective (Text.trimmed text) ∨
      ∃ token, error = .badToken token (Text.trimmed text)

theorem parse_of_not_at {text : String} (hat : (Text.trim text.toList).head? ≠ some '@')
    (strict : Bool) : parse text strict = .ok none := by
  rw [parse]
  exact if_pos hat

theorem parse_lenient_of_no_header {text : String}
    (hheader : header? (Text.trim text.toList) = none) : parse text false = .ok none := by
  by_cases hat : (Text.trim text.toList).head? = some '@'
  · simp [parse, hat, hheader]
  · exact parse_of_not_at hat false

theorem parse_lenient_of_header {text : String} (hat : (Text.trim text.toList).head? = some '@')
    {name params : List Char} (hheader : header? (Text.trim text.toList) = some (name, params)) :
    parse text false = .ok (some ⟨String.ofList name, lenientParams (tokens params)⟩) := by
  simp [parse, hat, hheader]

theorem followsStrict (text : String) : FollowsStrict text := by
  by_cases hat : (Text.trim text.toList).head? = some '@'
  case neg =>
    -- Without `@` there is no directive, in either reading.
    have hstrict := parse_of_not_at hat true
    have hlenient := parse_of_not_at hat false
    constructor <;> simp [hstrict, hlenient]
  cases hheader : header? (Text.trim text.toList) with
  | none =>
    have hstrict := parse_of_no_header hat hheader
    have hlenient := parse_lenient_of_no_header hheader
    constructor <;> simp [hstrict, hlenient]
  | some header =>
    obtain ⟨name, params⟩ := header
    have hstrict := parse_of_header hat hheader
    have hlenient := parse_lenient_of_header hat hheader
    rw [strictParams_eq] at hstrict
    cases hfirst : ((tokens params).filterMap Token.bad?).head? with
    | none =>
      rw [hfirst] at hstrict
      constructor <;> simp [hstrict, hlenient, Except.map]
    | some token =>
      rw [hfirst] at hstrict
      constructor
      case of_badToken =>
        intro token' directive hbad
        rw [hstrict] at hbad
        cases hbad
        exact ⟨name, params, tokens params, hheader, scanned_iff.mpr rfl, hfirst, hlenient⟩
      all_goals simp [hstrict, Except.map]

/-- Behind a bad token lenient reading goes on at the next blank, not at the quotation mark in it. -/
example : parse "@use \"a\" =\"b\" c" true = .error (.badToken "=\"b\"" "@use \"a\" =\"b\" c") ∧
    parse "@use \"a\" =\"b\" c" false = .ok (some ⟨"use", [.positional "a", .flag "c"]⟩) := by
  constructor <;> cbv

theorem exists_parse_lenient (text : String) : ∃ read, parse text false = .ok read := by
  cases hstrict : parse text true with
  | ok read => exact ⟨read, (followsStrict text).of_ok read hstrict⟩
  | error error =>
    rcases (followsStrict text).of_error error hstrict with rfl | ⟨token, rfl⟩
    · exact ⟨none, (followsStrict text).of_malformed _ hstrict⟩
    · obtain ⟨_, _, _, _, _, _, hlenient⟩ := (followsStrict text).of_badToken _ _ hstrict
      exact ⟨_, hlenient⟩

theorem isSyntax_of_parse_strict {text : String} {error : ModelError}
    (hstrict : parse text true = .error error) : error.isSyntax = true := by
  rcases (followsStrict text).of_error error hstrict with rfl | ⟨token, rfl⟩ <;> rfl

section Lists

variable {texts : List String} {found : List Directive} {error : ModelError}

theorem parseAll_eq_error_iff {strict : Bool} :
    parseAll texts strict = .error error ↔
      ∃ before text behind, texts = before ++ text :: behind ∧
        (∀ earlier ∈ before, ∃ read, parse earlier strict = .ok read) ∧
        parse text strict = .error error := by
  rw [← mapM_eq_error_iff (f := (parse · strict)), parseAll]
  cases texts.mapM (parse · strict) <;> simp [bind, Except.bind, pure, Except.pure]

theorem exists_parseAll_error_iff {strict : Bool} :
    (∃ error, parseAll texts strict = .error error) ↔
      ∃ text ∈ texts, ∃ error, parse text strict = .error error := by
  constructor
  · rintro ⟨error, herror⟩
    obtain ⟨before, text, behind, rfl, _, hfails⟩ := parseAll_eq_error_iff.mp herror
    exact ⟨text, List.mem_append_right before List.mem_cons_self, error, hfails⟩
  · rintro ⟨text, hmem, error, hfails⟩
    cases hall : parseAll texts strict with
    | error error => exact ⟨error, rfl⟩
    | ok found =>
      obtain ⟨reads, hreads, _⟩ := bind_eq_ok_iff.mp hall
      obtain ⟨read, hread⟩ := exists_of_mapM_eq_ok hreads text hmem
      rw [hread] at hfails
      cases hfails

theorem exists_parseAll_lenient (texts : List String) :
    ∃ found, parseAll texts false = .ok found := by
  cases hlenient : parseAll texts false with
  | ok found => exact ⟨found, rfl⟩
  | error error =>
    obtain ⟨_, text, _, _, _, hfails⟩ := parseAll_eq_error_iff.mp hlenient
    obtain ⟨read, hread⟩ := exists_parse_lenient text
    rw [hread] at hfails
    cases hfails

theorem parseAll_lenient_of_strict (hstrict : parseAll texts true = .ok found) :
    parseAll texts false = .ok found := by
  obtain ⟨reads, hreads, hfound⟩ := bind_eq_ok_iff.mp hstrict
  choose lenient hlenient using exists_parse_lenient
  -- Each text is read as strict reading reads it, so that the lists of the readings are the same.
  have hagree : reads = texts.map lenient := by
    refine eq_map_of_mapM_eq_ok (fun text _ read hread => ?_) hreads
    have hsame := (followsStrict text).of_ok read hread
    rw [hlenient] at hsame
    exact (Except.ok.inj hsame).symm
  refine bind_eq_ok_iff.mpr ⟨reads, ?_, hfound⟩
  rw [hagree]
  exact mapM_eq_ok_map fun text _ => hlenient text

end Lists

end DocModel.Directive
