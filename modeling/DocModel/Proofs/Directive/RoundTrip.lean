import DocModel.Directive.Reading
import DocModel.Proofs.Text.Trim
import DocModel.Proofs.Traversal
import Mathlib

/-!
Directives and their written form. A directive can be written when its name has no blanks, it has
parameters, and each of these is a flag, a quoted value or a named value of the right shape. Reading the
written form of such a directive gives it back, and strict reading yields no others.
-/

namespace DocModel

open Directive

/-- A letter, followed by letters, digits and underscores. -/
def IsIdentifier (name : String) : Prop :=
  ∃ c rest, name.toList = c :: rest ∧ isNameStart c = true ∧ ∀ d ∈ rest, isNameChar d = true

/-- A flag is named by an identifier. A value has no quotation marks and stands under itself or under an
identifier. -/
def Param.IsWritable (p : Param) : Prop :=
  match p.value with
  | none => IsIdentifier p.name
  | some value => '"' ∉ value.toList ∧ (p.name = value ∨ IsIdentifier p.name)

structure Directive.IsWritable (d : Directive) : Prop where
  name_ne_empty : d.name ≠ ""
  name_not_blank : ∀ c ∈ d.name.toList, Text.isBlank c = false
  params_ne_nil : d.params ≠ []
  params_writable : ∀ p ∈ d.params, p.IsWritable

theorem isBlank_of_isNameChar {c : Char} (hc : isNameChar c = true) : Text.isBlank c = false :=
  Text.isBlank_of_wordChar hc

theorem isNameChar_of_isNameStart {c : Char} (hc : isNameStart c = true) : isNameChar c = true := by
  simp [isNameChar, Char.isAlphanum, show c.isAlpha = true from hc]

theorem ne_quote_of_isNameStart {c : Char} (hc : isNameStart c = true) : c ≠ '"' := by
  rintro rfl
  cases hc

namespace Directive

theorem untilQuote?_append {value : List Char} (hvalue : '"' ∉ value) (rest : List Char) :
    untilQuote? (value ++ '"' :: rest) = some (value, rest) := by
  have hrun : ∀ c ∈ value, decide (c ≠ '"') = true := by
    intro c hc
    exact decide_eq_true fun h => hvalue (h ▸ hc)
  have hstops : Text.Stops (fun c => decide (c ≠ '"')) ('"' :: rest) := by simp [Text.Stops]
  rw [untilQuote?, Text.dropWhile_append_of_stops hrun hstops,
    Text.takeWhile_append_of_stops hrun hstops]

theorem not_mem_of_untilQuote? {s value rest : List Char} (h : untilQuote? s = some (value, rest)) :
    '"' ∉ value := by
  rw [untilQuote?] at h
  split at h
  · cases h
  · cases h
    intro hmem
    have hall := List.all_eq_true.mp List.all_takeWhile _ hmem
    simp at hall

theorem not_mem_of_assigned? {s value rest : List Char} (h : assigned? s = some (value, rest)) :
    '"' ∉ value := by
  unfold assigned? at h
  split at h
  · exact not_mem_of_untilQuote? h
  · cases h

/-- What may stand behind a written parameter: nothing, or a blank and more. -/
def Separated (rest : List Char) : Prop := rest = [] ∨ ∃ more, rest = ' ' :: more

theorem Separated.stops {rest : List Char} (hrest : Separated rest) : Text.Stops isNameChar rest := by
  rcases hrest with rfl | ⟨more, rfl⟩
  · simp [Text.Stops]
  · intro c hc
    cases hc
    decide

theorem Separated.assigned? {rest : List Char} (hrest : Separated rest) :
    Directive.assigned? rest = none := by
  rcases hrest with rfl | ⟨more, rfl⟩ <;> rfl

theorem nextToken_quoted {value : List Char} (hvalue : '"' ∉ value) (rest : List Char) :
    nextToken '"' (value ++ '"' :: rest) =
      (.param (.positional (String.ofList value)), rest) := by
  rw [nextToken, if_pos rfl, untilQuote?_append hvalue]

section Identifier

variable {c : Char} {name rest : List Char}

theorem nextToken_flag (hc : isNameStart c = true) (hname : ∀ d ∈ name, isNameChar d = true)
    (hrest : Separated rest) :
    nextToken c (name ++ rest) = (.param (.flag (String.ofList (c :: name))), rest) := by
  rw [nextToken, if_neg (ne_quote_of_isNameStart hc), if_pos hc, nameToken,
    Text.takeWhile_append_of_stops hname hrest.stops,
    Text.dropWhile_append_of_stops hname hrest.stops]
  simp only [hrest.assigned?]

theorem nextToken_named (hc : isNameStart c = true) (hname : ∀ d ∈ name, isNameChar d = true)
    {value : List Char} (hvalue : '"' ∉ value) :
    nextToken c (name ++ '=' :: '"' :: (value ++ '"' :: rest)) =
      (.param (.named (String.ofList (c :: name)) (String.ofList value)), rest) := by
  have hstops : Text.Stops isNameChar ('=' :: '"' :: (value ++ '"' :: rest)) := by
    intro d hd
    cases hd
    decide
  rw [nextToken, if_neg (ne_quote_of_isNameStart hc), if_pos hc, nameToken,
    Text.takeWhile_append_of_stops hname hstops, Text.dropWhile_append_of_stops hname hstops]
  simp only [assigned?, untilQuote?_append hvalue]

end Identifier

theorem tokens_cons {c : Char} (hc : Text.isBlank c = false) (rest : List Char) :
    tokens (c :: rest) = (nextToken c rest).1 :: tokens (nextToken c rest).2 := by
  rw [tokens]
  simp [hc]

/-- A written parameter is read as one token, which leaves the rest. -/
theorem tokens_describe {p : Param} (hp : p.IsWritable) {rest : List Char} (hrest : Separated rest) :
    tokens (p.describe.toList ++ rest) = .param p :: tokens rest := by
  obtain ⟨name, value⟩ := p
  -- A value that is also the name is written in quotation marks alone, even if it is an identifier.
  cases value with
  | none =>
    obtain ⟨c, more, hname, hc, hmore⟩ : IsIdentifier name := hp
    have hblank := isBlank_of_isNameChar (isNameChar_of_isNameStart hc)
    simp only [Param.describe]
    rw [hname, List.cons_append, tokens_cons hblank, nextToken_flag hc hmore hrest, ← hname,
      String.ofList_toList, Param.flag]
  | some value =>
    obtain ⟨hvalue, hnamed⟩ : '"' ∉ value.toList ∧ (name = value ∨ IsIdentifier name) := hp
    by_cases hpositional : name = value
    · subst hpositional
      have htoken := nextToken_quoted hvalue rest
      have hdescribe : (Param.describe ⟨name, some name⟩).toList ++ rest =
          '"' :: (name.toList ++ '"' :: rest) := by
        simp [Param.describe, Param.isPositional]
      rw [hdescribe, tokens_cons (by decide), htoken, String.ofList_toList, Param.positional]
    · obtain ⟨c, more, hname, hc, hmore⟩ := hnamed.resolve_left hpositional
      have hblank := isBlank_of_isNameChar (isNameChar_of_isNameStart hc)
      have hdescribe : (Param.describe ⟨name, some value⟩).toList ++ rest =
          c :: (more ++ '=' :: '"' :: (value.toList ++ '"' :: rest)) := by
        simp [Param.describe, Param.isPositional, hname, Ne.symm hpositional]
      rw [hdescribe, tokens_cons hblank, nextToken_named hc hmore hvalue, ← hname,
        String.ofList_toList, String.ofList_toList, Param.named]

/-- The written forms of some parameters, with a blank between neighbours. -/
def written (params : List Param) : List Char :=
  (" ".intercalate (params.map Param.describe)).toList

theorem written_singleton (p : Param) : written [p] = p.describe.toList := by
  simp [written]

theorem written_cons_cons (p next : Param) (rest : List Param) :
    written (p :: next :: rest) = p.describe.toList ++ ' ' :: written (next :: rest) := by
  simp [written, String.toList_intercalate]

theorem tokens_blank (rest : List Char) : tokens (' ' :: rest) = tokens rest := by
  have hblank : Text.isBlank ' ' = true := by decide
  rw [tokens]
  simp [hblank]

theorem tokens_written {params : List Param} (hparams : ∀ p ∈ params, p.IsWritable) :
    tokens (written params) = params.map .param := by
  induction params with
  | nil => simp [written, tokens]
  | cons p rest ih =>
    have hp := hparams p List.mem_cons_self
    have hrest := ih fun q hq => hparams q (List.mem_cons_of_mem p hq)
    cases rest with
    | nil =>
      have htokens := tokens_describe hp (.inl rfl)
      rw [List.append_nil] at htokens
      simp [written_singleton, htokens, tokens]
    | cons next rest =>
      rw [written_cons_cons, tokens_describe hp (.inr ⟨_, rfl⟩), tokens_blank, hrest]
      rfl

theorem strictParams_map (text : String) (params : List Param) :
    strictParams text (params.map .param) = .ok params := by
  induction params with
  | nil => rfl
  | cons p rest ih => rw [List.map_cons, strictParams, ih]; rfl

theorem lenientParams_map (params : List Param) : lenientParams (params.map .param) = params := by
  simp [lenientParams, List.filterMap_map]

/-- A text that is not empty and has no blank at either end. -/
structure IsTrimmed (s : List Char) : Prop where
  ne_nil : s ≠ []
  first : Text.Stops Text.isBlank s
  last : Text.Stops Text.isBlank s.reverse

theorem stops_append {test : Char → Bool} {s : List Char} (hs : Text.Stops test s) (hne : s ≠ [])
    (rest : List Char) : Text.Stops test (s ++ rest) := by
  cases s with
  | nil => exact absurd rfl hne
  | cons c s => exact hs

theorem IsTrimmed.append {s t : List Char} (hs : IsTrimmed s) (ht : IsTrimmed t)
    (between : List Char) : IsTrimmed (s ++ between ++ t) where
  ne_nil := by simp [hs.ne_nil]
  first := by
    rw [List.append_assoc]
    exact stops_append hs.first hs.ne_nil _
  last := by
    rw [List.reverse_append]
    exact stops_append ht.last (by simpa using ht.ne_nil) _

theorem isTrimmed_of_not_blank {s : List Char} (hne : s ≠ [])
    (hs : ∀ c ∈ s, Text.isBlank c = false) : IsTrimmed s where
  ne_nil := hne
  first := fun c hc => hs c (List.mem_of_mem_head? hc)
  last := fun c hc => hs c (List.mem_reverse.mp (List.mem_of_mem_head? hc))

theorem isTrimmed_singleton {c : Char} (hc : Text.isBlank c = false) : IsTrimmed [c] :=
  isTrimmed_of_not_blank (List.cons_ne_nil c []) fun _ hmem => List.mem_singleton.mp hmem ▸ hc

theorem isTrimmed_describe {p : Param} (hp : p.IsWritable) : IsTrimmed p.describe.toList := by
  obtain ⟨name, value⟩ := p
  have hquote : IsTrimmed ['"'] := isTrimmed_singleton (by decide)
  have hidentifier (hname : IsIdentifier name) : IsTrimmed name.toList := by
    obtain ⟨c, rest, hname, hc, hrest⟩ := hname
    rw [hname]
    refine isTrimmed_of_not_blank nofun (List.forall_mem_cons.mpr ⟨?_, fun d hd => ?_⟩)
    · exact isBlank_of_isNameChar (isNameChar_of_isNameStart hc)
    · exact isBlank_of_isNameChar (hrest d hd)
  cases value with
  | none => exact hidentifier hp
  | some value =>
    obtain ⟨_, hnamed⟩ : '"' ∉ value.toList ∧ (name = value ∨ IsIdentifier name) := hp
    by_cases hpositional : name = value
    · have htrimmed := hquote.append hquote value.toList
      simpa [Param.describe, Param.isPositional, hpositional] using htrimmed
    · have hname := hidentifier (hnamed.resolve_left hpositional)
      have htrimmed := hname.append hquote ('=' :: '"' :: value.toList)
      simpa [Param.describe, Param.isPositional, Ne.symm hpositional] using htrimmed

theorem isTrimmed_written {params : List Param} (hne : params ≠ [])
    (hparams : ∀ p ∈ params, p.IsWritable) : IsTrimmed (written params) := by
  induction params with
  | nil => exact absurd rfl hne
  | cons p rest ih =>
    have hp := isTrimmed_describe (hparams p List.mem_cons_self)
    cases rest with
    | nil => rwa [written_singleton]
    | cons next rest =>
      have hrest := ih (List.cons_ne_nil next rest) fun q hq =>
        hparams q (List.mem_cons_of_mem p hq)
      rw [written_cons_cons, List.append_cons]
      exact hp.append hrest [' ']

theorem toList_describe (d : Directive) :
    d.describe.toList = '@' :: (d.name.toList ++ ' ' :: written d.params) := by
  simp [describe, written]

section Written

variable {d : Directive}

theorem IsWritable.header?_eq (hd : d.IsWritable) :
    header? d.describe.toList = some (d.name.toList, written d.params) := by
  have hwritten := isTrimmed_written hd.params_ne_nil hd.params_writable
  have hname : ∀ c ∈ d.name.toList, (!Text.isBlank c) = true := by
    simpa using hd.name_not_blank
  have hstops : Text.Stops (fun c => !Text.isBlank c) (' ' :: written d.params) := by
    intro c hc
    cases hc
    decide
  have hparams : Text.trimStart (' ' :: written d.params) = written d.params :=
    (List.dropWhile_cons_of_pos (by decide)).trans (Text.trimStart_eq_self hwritten.first)
  rw [toList_describe, header?, Text.takeWhile_append_of_stops hname hstops,
    Text.dropWhile_append_of_stops hname hstops, hparams]
  simp [hd.name_ne_empty, hwritten.ne_nil]

theorem IsWritable.trim_describe (hd : d.IsWritable) :
    Text.trim d.describe.toList = d.describe.toList := by
  have hwritten := isTrimmed_written hd.params_ne_nil hd.params_writable
  have hat : IsTrimmed ['@'] := isTrimmed_singleton (by decide)
  have htrimmed := hat.append hwritten (d.name.toList ++ [' '])
  rw [toList_describe]
  exact Text.trim_eq_self (by simpa using htrimmed.first) (by simpa using htrimmed.last)

/-- The written form is read as the directive, in strict and in lenient reading. -/
theorem IsWritable.parse_describe (hd : d.IsWritable) (strict : Bool) :
    parse d.describe strict = .ok (some d) := by
  have hhead : d.describe.toList.head? = some '@' := by rw [toList_describe]; rfl
  have htokens := tokens_written hd.params_writable
  rw [parse, hd.trim_describe]
  simp only [hhead, ne_eq, not_true_eq_false, if_false, hd.header?_eq, htokens]
  cases strict with
  | true => simp [strictParams_map, Except.map]
  | false => simp [lenientParams_map]

end Written

section Reading

theorem isWritable_of_nextToken {c : Char} {rest : List Char} {p : Param}
    (htoken : (nextToken c rest).1 = .param p) : p.IsWritable := by
  rw [nextToken] at htoken
  split at htoken
  · split at htoken
    · next value behind hvalue =>
      cases htoken
      exact ⟨by simpa using not_mem_of_untilQuote? hvalue, .inl rfl⟩
    · cases htoken
  · split at htoken
    · next hc =>
      have hidentifier : IsIdentifier (String.ofList (c :: rest.takeWhile isNameChar)) :=
        ⟨c, _, String.toList_ofList, hc, fun d hd => List.all_eq_true.mp List.all_takeWhile d hd⟩
      rw [nameToken] at htoken
      split at htoken
      · next value behind hvalue =>
        cases htoken
        exact ⟨by simpa using not_mem_of_assigned? hvalue, .inr hidentifier⟩
      · cases htoken
        exact hidentifier
    · cases htoken

theorem isWritable_of_mem_tokens {s : List Char} {p : Param} (hmem : Token.param p ∈ tokens s) :
    p.IsWritable := by
  induction s using tokens.induct with
  | case1 => simp [tokens] at hmem
  | case2 c rest hc ih =>
    rw [tokens, if_pos hc] at hmem
    exact ih hmem
  | case3 c rest hc _ ih =>
    rw [tokens, if_neg hc, List.mem_cons] at hmem
    rcases hmem with htoken | hmem
    · exact isWritable_of_nextToken htoken.symm
    · exact ih hmem

theorem eq_map_of_strictParams {text : String} {found : List Token} {params : List Param}
    (hok : strictParams text found = .ok params) : found = params.map .param := by
  induction found generalizing params with
  | nil =>
    cases hok
    rfl
  | cons token rest ih =>
    cases token with
    | bad text => cases hok
    | param p =>
      rw [strictParams] at hok
      cases hrest : strictParams text rest with
      | error e => rw [hrest] at hok; cases hok
      | ok more =>
        rw [hrest] at hok
        cases hok
        rw [ih hrest, List.map_cons]

/-- A header has a name without blanks, and what comes behind it begins with a token. -/
theorem header?_eq_some {s name params : List Char} (hheader : header? s = some (name, params)) :
    name ≠ [] ∧ (∀ c ∈ name, Text.isBlank c = false) ∧ tokens params ≠ [] := by
  unfold header? at hheader
  split at hheader
  · next text =>
    dsimp only at hheader
    split at hheader
    · cases hheader
    · next hne =>
      cases hheader
      simp only [Bool.or_eq_true, List.isEmpty_iff, not_or] at hne
      refine ⟨hne.1, fun c hc => ?_, ?_⟩
      · simpa using List.all_eq_true.mp List.all_takeWhile c hc
      · cases hparams : Text.trimStart (text.dropWhile fun c => !Text.isBlank c) with
        | nil => exact absurd hparams hne.2
        | cons c rest =>
          have hstops := Text.stops_dropWhile Text.isBlank (text.dropWhile fun c => !Text.isBlank c)
          rw [← Text.trimStart, hparams] at hstops
          rw [tokens_cons (hstops c rfl)]
          exact List.cons_ne_nil _ _
  · cases hheader

theorem isWritable_of_parse {text : String} {d : Directive}
    (hok : parse text true = .ok (some d)) : d.IsWritable := by
  rw [parse] at hok
  dsimp only at hok
  split at hok
  · cases hok
  · split at hok
    · cases hok
    · next name params hheader =>
      obtain ⟨hname, hblank, htokens⟩ := header?_eq_some hheader
      rw [if_pos rfl] at hok
      cases hparams : strictParams (String.ofList (Text.trim text.toList)) (tokens params) with
      | error e => rw [hparams] at hok; cases hok
      | ok found =>
        rw [hparams] at hok
        cases hok
        have hfound := eq_map_of_strictParams hparams
        refine ⟨by simpa using hname, by simpa using hblank, ?_, fun p hp => ?_⟩
        · rintro rfl
          exact htokens hfound
        · have hmem : Token.param p ∈ tokens params := by
            rw [hfound]
            exact List.mem_map_of_mem hp
          exact isWritable_of_mem_tokens hmem

end Reading

/-- Writing and reading are inverse. A directive that can be written is read back from its written form,
strictly or not; and what strict reading yields from any text can be written, and is read back. -/
theorem parse_describe_inverse (d : Directive) :
    (d.IsWritable → ∀ strict, parse d.describe strict = .ok (some d)) ∧
      ∀ text, parse text true = .ok (some d) →
        d.IsWritable ∧ ∀ strict, parse d.describe strict = .ok (some d) := by
  refine ⟨fun hd => hd.parse_describe, fun text hok => ?_⟩
  have hd := isWritable_of_parse hok
  exact ⟨hd, hd.parse_describe⟩

/-- A quoted value with a line break and signs in it, a named value, a value under its own text, and a
flag. -/
def roomOption : Directive :=
  ⟨"option", [.positional "@1 =\n2", .named "for" "guest.room", .named "x" "x", .flag "disabled"]⟩

theorem parse_describe_inverse_roomOption :
    parse " @option \"@1 =\n2\"for=\"guest.room\" x=\"x\"  disabled\t" true = .ok (some roomOption) ∧
      roomOption.IsWritable ∧ roomOption.describe =
        "@option \"@1 =\n2\" for=\"guest.room\" \"x\" disabled" ∧
      parse roomOption.describe false = .ok (some roomOption) := by
  have hread : parse " @option \"@1 =\n2\"for=\"guest.room\" x=\"x\"  disabled\t" true =
      .ok (some roomOption) := by cbv
  obtain ⟨hforward, hbackward⟩ := parse_describe_inverse roomOption
  have hwritable := (hbackward _ hread).1
  exact ⟨hread, hwritable, by decide +kernel, hforward hwritable false⟩

end Directive

end DocModel
