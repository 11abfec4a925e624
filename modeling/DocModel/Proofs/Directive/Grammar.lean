import DocModel.Proofs.Directive.RoundTrip

/-!
The texts that strict reading accepts as directives, as a grammar: `@`, a name without blanks, blanks, and
tokens. The tokens may have blanks between them but need none, since reading takes the longest token at
the front of what is left and goes on right behind it.
-/

namespace DocModel.Directive

/-- The text of one token: a quoted value, a named value or an identifier. -/
inductive IsTokenText : List Char → Prop
  | quoted {value : List Char} (hvalue : '"' ∉ value) : IsTokenText ('"' :: (value ++ ['"']))
  | named {c : Char} {name value : List Char} (hc : isNameStart c = true)
      (hname : ∀ d ∈ name, isNameChar d = true) (hvalue : '"' ∉ value) :
      IsTokenText (c :: (name ++ '=' :: '"' :: (value ++ ['"'])))
  | flag {c : Char} {name : List Char} (hc : isNameStart c = true)
      (hname : ∀ d ∈ name, isNameChar d = true) : IsTokenText (c :: name)

/-- Blanks, one at least if they are needed. -/
def IsGap (needed : Bool) (s : List Char) : Prop :=
  (∀ c ∈ s, Text.isBlank c = true) ∧ (needed = true → s ≠ [])

/-- One or more tokens, with a gap between neighbours. -/
inductive IsTokenList (needed : Bool) : List Char → Prop
  | last {t : List Char} (ht : IsTokenText t) : IsTokenList needed t
  | more {t between rest : List Char} (ht : IsTokenText t) (hgap : IsGap needed between)
      (hrest : IsTokenList needed rest) : IsTokenList needed (t ++ (between ++ rest))

/-- The text of a directive: `@`, a name, blanks, and tokens, which may need blanks between them. -/
inductive IsDirectiveText (needed : Bool) : List Char → Prop
  | intro {name between params : List Char} (hname : name ≠ [])
      (hsolid : ∀ c ∈ name, Text.isBlank c = false) (hbetween : IsGap true between)
      (hparams : IsTokenList needed params) :
      IsDirectiveText needed ('@' :: (name ++ (between ++ params)))

theorem IsTokenText.exists_cons {t : List Char} (ht : IsTokenText t) :
    ∃ c rest, t = c :: rest ∧ Text.isBlank c = false := by
  cases ht with
  | quoted _ => exact ⟨_, _, rfl, by decide⟩
  | named hc _ _ => exact ⟨_, _, rfl, isBlank_of_isNameChar (isNameChar_of_isNameStart hc)⟩
  | flag hc _ => exact ⟨_, _, rfl, isBlank_of_isNameChar (isNameChar_of_isNameStart hc)⟩

theorem IsTokenList.exists_cons {needed : Bool} {s : List Char} (hs : IsTokenList needed s) :
    ∃ c rest, s = c :: rest ∧ Text.isBlank c = false := by
  cases hs with
  | last ht => exact ht.exists_cons
  | more ht _ _ =>
    obtain ⟨c, rest, rfl, hc⟩ := ht.exists_cons
    exact ⟨c, _, rfl, hc⟩

/-- A text whose tokens are all parameters. -/
def IsReadable (s : List Char) : Prop := ∃ params : List Param, tokens s = params.map .param

theorem isReadable_nil : IsReadable [] := ⟨[], by simp [tokens]⟩

theorem isReadable_cons_of_blank {c : Char} (hc : Text.isBlank c = true) (rest : List Char) :
    IsReadable (c :: rest) ↔ IsReadable rest := by
  have htokens : tokens (c :: rest) = tokens rest := by rw [tokens, if_pos hc]
  rw [IsReadable, htokens, IsReadable]

theorem isReadable_append_of_blanks {between : List Char}
    (hbetween : ∀ c ∈ between, Text.isBlank c = true) (rest : List Char) :
    IsReadable (between ++ rest) ↔ IsReadable rest := by
  induction between with
  | nil => rfl
  | cons c more ih =>
    obtain ⟨hc, hmore⟩ := List.forall_mem_cons.mp hbetween
    rw [List.cons_append, isReadable_cons_of_blank hc, ih hmore]

theorem isReadable_cons {c : Char} (hc : Text.isBlank c = false) (rest : List Char) :
    IsReadable (c :: rest) ↔
      (∃ p, (nextToken c rest).1 = .param p) ∧ IsReadable (nextToken c rest).2 := by
  rw [IsReadable, tokens_cons hc]
  constructor
  · rintro ⟨params, hparams⟩
    obtain ⟨p, more, rfl, hp, hmore⟩ := List.map_eq_cons_iff.mp hparams.symm
    exact ⟨⟨p, hp.symm⟩, more, hmore.symm⟩
  · rintro ⟨⟨p, hp⟩, more, hmore⟩
    exact ⟨p :: more, by rw [hp, hmore, List.map_cons]⟩

section Names

variable {c : Char} {name rest : List Char}

theorem exists_param_nameToken (c : Char) (rest : List Char) :
    ∃ p, (nameToken c rest).1 = .param p := by
  rw [nameToken]
  split
  · exact ⟨_, rfl⟩
  · exact ⟨_, rfl⟩

/-- What a name leaves depends on the text behind the name only. -/
theorem nameToken_append_snd (hname : ∀ d ∈ name, isNameChar d = true) (d : Char) :
    (nameToken c (name ++ rest)).2 = (nameToken d rest).2 := by
  simp only [nameToken, List.dropWhile_append_of_pos hname]
  cases assigned? (rest.dropWhile isNameChar) <;> rfl

theorem nextToken_of_isNameStart (hc : isNameStart c = true) : nextToken c rest = nameToken c rest := by
  rw [nextToken, if_neg (ne_quote_of_isNameStart hc), if_pos hc]

theorem isReadable_cons_of_isNameStart (hc : isNameStart c = true) :
    IsReadable (c :: rest) ↔ IsReadable (nameToken c rest).2 := by
  have hblank := isBlank_of_isNameChar (isNameChar_of_isNameStart hc)
  rw [isReadable_cons hblank, nextToken_of_isNameStart hc]
  exact and_iff_right (exists_param_nameToken c rest)

/-- A readable text that does not begin with a letter begins with a blank or a quotation mark. -/
theorem blank_or_quote_of_isReadable (hrest : IsReadable (c :: rest)) (hc : isNameStart c = false) :
    Text.isBlank c = true ∨ c = '"' := by
  by_contra hneither
  obtain ⟨hblank, hquote⟩ := not_or.mp hneither
  have htoken : nextToken c rest = badToken c rest := by
    rw [nextToken, if_neg hquote, if_neg (by simp [hc])]
  obtain ⟨⟨p, hp⟩, _⟩ := (isReadable_cons (by simpa using hblank) rest).mp hrest
  rw [htoken] at hp
  cases hp

theorem nameToken_snd_of_blank {d : Char} (hd : Text.isBlank d = true) (more : List Char) :
    (nameToken c (d :: more)).2 = d :: more := by
  have hchar : isNameChar d = false := by
    by_contra hchar
    simp [isBlank_of_isNameChar (by simpa using hchar)] at hd
  have hassigned : assigned? (d :: more) = none := by
    unfold assigned?
    split
    · next hparts =>
      cases hparts
      exact absurd hd (by decide)
    · rfl
  simp [nameToken, hchar, hassigned]

/-- A name before a readable text is read as a flag, or as a part of the name that the text begins
with. -/
theorem isReadable_name_append (hc : isNameStart c = true) (hname : ∀ d ∈ name, isNameChar d = true)
    (hrest : IsReadable rest) : IsReadable (c :: (name ++ rest)) := by
  rw [isReadable_cons_of_isNameStart hc]
  cases rest with
  | nil =>
    rw [nameToken_append_snd hname c]
    exact isReadable_nil
  | cons d more =>
    cases hd : isNameStart d with
    | true =>
      -- The letter is read as a part of the name, and what is left depends on the text behind it only.
      have hmerged : ∀ e ∈ name ++ [d], isNameChar e = true := by
        intro e he
        rcases List.mem_append.mp he with he | he
        · exact hname e he
        · exact List.mem_singleton.mp he ▸ isNameChar_of_isNameStart hd
      rw [List.append_cons, nameToken_append_snd hmerged d]
      exact (isReadable_cons_of_isNameStart hd).mp hrest
    | false =>
      have hbehind : (nameToken c (d :: more)).2 = d :: more := by
        rcases blank_or_quote_of_isReadable hrest hd with hblank | rfl
        · exact nameToken_snd_of_blank hblank more
        · rfl
      rw [nameToken_append_snd hname c, hbehind]
      exact hrest

end Names

theorem IsTokenText.isReadable_append {t rest : List Char} (ht : IsTokenText t)
    (hrest : IsReadable rest) : IsReadable (t ++ rest) := by
  cases ht with
  | @quoted value hvalue =>
    have htoken := nextToken_quoted hvalue rest
    have hparts : '"' :: (value ++ ['"']) ++ rest = '"' :: (value ++ '"' :: rest) := by simp
    rw [hparts, isReadable_cons (by decide), htoken]
    exact ⟨⟨_, rfl⟩, hrest⟩
  | @named c name value hc hname hvalue =>
    have hblank := isBlank_of_isNameChar (isNameChar_of_isNameStart hc)
    have hparts : c :: (name ++ '=' :: '"' :: (value ++ ['"'])) ++ rest =
        c :: (name ++ '=' :: '"' :: (value ++ '"' :: rest)) := by simp
    rw [hparts, isReadable_cons hblank, nextToken_named hc hname hvalue]
    exact ⟨⟨_, rfl⟩, hrest⟩
  | flag hc hname => exact isReadable_name_append hc hname hrest

theorem IsTokenList.isReadable {needed : Bool} {s : List Char} (hs : IsTokenList needed s) :
    IsReadable s := by
  induction hs with
  | @last t ht =>
    have hread := ht.isReadable_append isReadable_nil
    rwa [List.append_nil] at hread
  | more ht hgap _ ih => exact ht.isReadable_append ((isReadable_append_of_blanks hgap.1 _).mpr ih)

/-- Whether every token of a text, as they are read, has a blank or nothing behind it. -/
def isSpaced : List Char → Bool
  | [] => true
  | c :: rest =>
    if Text.isBlank c then isSpaced rest
    else
      have := nextToken_length c rest
      (nextToken c rest).2.head?.all Text.isBlank && isSpaced (nextToken c rest).2
termination_by s => s.length

theorem isSpaced_append_of_blanks {between : List Char}
    (hbetween : ∀ c ∈ between, Text.isBlank c = true) (rest : List Char) :
    isSpaced (between ++ rest) = isSpaced rest := by
  induction between with
  | nil => rfl
  | cons c more ih =>
    obtain ⟨hc, hmore⟩ := List.forall_mem_cons.mp hbetween
    rw [List.cons_append, isSpaced, if_pos hc, ih hmore]

theorem isSpaced_cons {c : Char} (hc : Text.isBlank c = false) (rest : List Char) :
    isSpaced (c :: rest) =
      ((nextToken c rest).2.head?.all Text.isBlank && isSpaced (nextToken c rest).2) := by
  rw [isSpaced]
  simp [hc]

/-- A token with a blank or nothing behind it is read up to its end. -/
theorem IsTokenText.nextToken_snd {t : List Char} (ht : IsTokenText t) (rest : List Char)
    (hrest : rest.head?.all Text.isBlank = true) :
    ∃ c more, t ++ rest = c :: more ∧ Text.isBlank c = false ∧ (nextToken c more).2 = rest := by
  cases ht with
  | @quoted value hvalue =>
    have hparts : '"' :: (value ++ ['"']) ++ rest = '"' :: (value ++ '"' :: rest) := by simp
    exact ⟨'"', _, hparts, by decide, by rw [nextToken_quoted hvalue]⟩
  | @named c name value hc hname hvalue =>
    have hblank := isBlank_of_isNameChar (isNameChar_of_isNameStart hc)
    have hparts : c :: (name ++ '=' :: '"' :: (value ++ ['"'])) ++ rest =
        c :: (name ++ '=' :: '"' :: (value ++ '"' :: rest)) := by simp
    exact ⟨c, _, hparts, hblank, by rw [nextToken_named hc hname hvalue]⟩
  | @flag c name hc hname =>
    have hblank := isBlank_of_isNameChar (isNameChar_of_isNameStart hc)
    refine ⟨c, name ++ rest, rfl, hblank, ?_⟩
    rw [nextToken_of_isNameStart hc, nameToken_append_snd hname c]
    cases rest with
    | nil => rfl
    | cons d more => exact nameToken_snd_of_blank hrest more

theorem IsTokenList.isSpaced {s : List Char} (hs : IsTokenList true s) : isSpaced s = true := by
  induction hs with
  | @last t ht =>
    obtain ⟨c, more, hparts, hc, hbehind⟩ := ht.nextToken_snd [] rfl
    rw [List.append_nil] at hparts
    rw [hparts, isSpaced_cons hc, hbehind]
    simp [Directive.isSpaced]
  | @more t between rest ht hgap _ ih =>
    obtain ⟨hblanks, hne⟩ := hgap
    have hhead : (between ++ rest).head?.all Text.isBlank = true := by
      obtain ⟨c, more, rfl⟩ := List.exists_cons_of_ne_nil (hne rfl)
      exact hblanks c List.mem_cons_self
    obtain ⟨c, more, hparts, hc, hbehind⟩ := ht.nextToken_snd (between ++ rest) hhead
    rw [hparts, isSpaced_cons hc, hbehind, hhead, isSpaced_append_of_blanks hblanks, ih]
    rfl

section Texts

variable {c : Char} {s rest value behind : List Char}

theorem eq_append_of_untilQuote? (hvalue : untilQuote? s = some (value, behind)) :
    s = value ++ '"' :: behind := by
  have hparts : s.takeWhile (· ≠ '"') ++ s.dropWhile (· ≠ '"') = s :=
    List.takeWhile_append_dropWhile
  rw [untilQuote?] at hvalue
  split at hvalue
  · cases hvalue
  · next mark rest hrest =>
    cases hvalue
    have hstops := Text.stops_dropWhile (fun c => decide (c ≠ '"')) s
    rw [hrest] at hstops hparts
    have hmark : mark = '"' := by simpa using hstops mark rfl
    rw [hmark] at hparts
    exact hparts.symm

theorem eq_append_of_assigned? (hvalue : assigned? s = some (value, behind)) :
    s = '=' :: '"' :: (value ++ '"' :: behind) := by
  unfold assigned? at hvalue
  split at hvalue
  · rw [← eq_append_of_untilQuote? hvalue]
  · cases hvalue

/-- A parameter has been read from the text of a token. -/
theorem exists_isTokenText_of_nextToken {p : Param} (htoken : nextToken c rest = (.param p, behind)) :
    ∃ t, IsTokenText t ∧ c :: rest = t ++ behind := by
  rw [nextToken] at htoken
  split at htoken
  · next hquote =>
    subst hquote
    split at htoken
    · next value left hvalue =>
      cases htoken
      refine ⟨_, .quoted (not_mem_of_untilQuote? hvalue), ?_⟩
      simp [eq_append_of_untilQuote? hvalue]
    · cases htoken
  · split at htoken
    · next hc =>
      have hname : ∀ d ∈ rest.takeWhile isNameChar, isNameChar d = true :=
        fun d hd => List.all_eq_true.mp List.all_takeWhile d hd
      have hparts : rest.takeWhile isNameChar ++ rest.dropWhile isNameChar = rest :=
        List.takeWhile_append_dropWhile
      rw [nameToken] at htoken
      split at htoken
      · next value left hvalue =>
        cases htoken
        refine ⟨_, .named hc hname (not_mem_of_assigned? hvalue), ?_⟩
        rw [eq_append_of_assigned? hvalue] at hparts
        simpa using hparts.symm
      · cases htoken
        exact ⟨_, .flag hc hname, by simp [hparts]⟩
    · cases htoken

end Texts

theorem stops_reverse_of_append {test : Char → Bool} {front rest : List Char}
    (hlast : Text.Stops test (front ++ rest).reverse) : Text.Stops test rest.reverse := by
  intro c hc
  refine hlast c ?_
  rw [List.reverse_append, List.head?_append, Option.mem_def.mp hc]
  rfl

/-- A readable text that does not end with a blank is empty, or blanks and tokens. -/
theorem IsReadable.exists_tokenList {needed : Bool} {s : List Char} (hs : IsReadable s)
    (hspaced : needed = true → isSpaced s = true) (hlast : Text.Stops Text.isBlank s.reverse) :
    s = [] ∨ ∃ lead body, s = lead ++ body ∧ (∀ c ∈ lead, Text.isBlank c = true) ∧
      IsTokenList needed body := by
  -- The cases are those of reading: the end, a blank, and a token with what it leaves.
  induction s using tokens.induct with
  | case1 => exact .inl rfl
  | case2 c rest hc ih =>
    have hrest := ih ((isReadable_cons_of_blank hc rest).mp hs)
      (fun h => by simpa [isSpaced, hc] using hspaced h)
      (stops_reverse_of_append (show Text.Stops _ ([c] ++ rest).reverse from hlast))
    rcases hrest with rfl | ⟨lead, body, rfl, hlead, hbody⟩
    · have hsolid := hlast c rfl
      rw [hc] at hsolid
      cases hsolid
    · exact .inr ⟨c :: lead, body, rfl, List.forall_mem_cons.mpr ⟨hc, hlead⟩, hbody⟩
  | case3 c rest hc _ ih =>
    have hc : Text.isBlank c = false := by simpa using hc
    obtain ⟨⟨p, hp⟩, hbehind⟩ := (isReadable_cons hc rest).mp hs
    have htoken : nextToken c rest = (.param p, (nextToken c rest).2) := by rw [← hp]
    obtain ⟨t, ht, hparts⟩ := exists_isTokenText_of_nextToken htoken
    rw [hparts] at hlast
    have hapart (h : needed = true) : (nextToken c rest).2.head?.all Text.isBlank = true ∧
        isSpaced (nextToken c rest).2 = true := by
      simpa [isSpaced_cons hc] using hspaced h
    refine .inr ⟨[], c :: rest, rfl, List.forall_mem_nil _, ?_⟩
    rcases ih hbehind (fun h => (hapart h).2) (stops_reverse_of_append hlast) with
      hnil | ⟨lead, body, hbody, hlead, htokens⟩
    · rw [hparts, hnil, List.append_nil]
      exact .last ht
    · have hgap : IsGap needed lead := by
        refine ⟨hlead, fun h hnil => ?_⟩
        obtain ⟨d, more, rfl, hd⟩ := htokens.exists_cons
        have hblank := (hapart h).1
        simp [hbody, hnil, hd] at hblank
      rw [hparts, hbody]
      exact .more ht hgap htokens

theorem isTokenList_iff {needed : Bool} {s : List Char} (hne : s ≠ [])
    (hfirst : Text.Stops Text.isBlank s) (hlast : Text.Stops Text.isBlank s.reverse) :
    IsTokenList needed s ↔ IsReadable s ∧ (needed = true → isSpaced s = true) := by
  constructor
  · intro hs
    refine ⟨hs.isReadable, fun h => ?_⟩
    subst h
    exact hs.isSpaced
  · rintro ⟨hs, hspaced⟩
    obtain ⟨lead, body, rfl, hlead, hbody⟩ := (hs.exists_tokenList hspaced hlast).resolve_left hne
    cases lead with
    | nil => exact hbody
    | cons c lead =>
      have hsolid := hfirst c rfl
      rw [hlead c List.mem_cons_self] at hsolid
      cases hsolid

/-- A header is `@`, a name without blanks, blanks, and a text that does not begin with a blank. -/
theorem header?_eq_some_iff {s name params : List Char} :
    header? s = some (name, params) ↔
      ∃ between, s = '@' :: (name ++ (between ++ params)) ∧ name ≠ [] ∧
        (∀ c ∈ name, Text.isBlank c = false) ∧ IsGap true between ∧ params ≠ [] ∧
        Text.Stops Text.isBlank params := by
  constructor
  · intro hheader
    unfold header? at hheader
    split at hheader
    · next text =>
      dsimp only at hheader
      split at hheader
      · cases hheader
      · next hne =>
        cases hheader
        simp only [Bool.or_eq_true, List.isEmpty_iff, not_or] at hne
        obtain ⟨hname, hparams⟩ := hne
        have hname' : text.takeWhile (fun c => !Text.isBlank c) ++
            text.dropWhile (fun c => !Text.isBlank c) = text := List.takeWhile_append_dropWhile
        have hbehind := Text.stops_dropWhile (fun c => !Text.isBlank c) text
        generalize text.dropWhile (fun c => !Text.isBlank c) = behind at *
        have hbetween : behind.takeWhile Text.isBlank ++ Text.trimStart behind = behind :=
          List.takeWhile_append_dropWhile
        have hfirst : Text.Stops Text.isBlank (Text.trimStart behind) :=
          Text.stops_dropWhile Text.isBlank behind
        refine ⟨behind.takeWhile Text.isBlank, by rw [hbetween, hname'], hname, fun c hc => ?_,
          ⟨fun c hc => List.all_eq_true.mp List.all_takeWhile c hc, fun _ hnone => ?_⟩, hparams, hfirst⟩
        · simpa using List.all_eq_true.mp List.all_takeWhile c hc
        · rw [hnone, List.nil_append] at hbetween
          rw [hbetween] at hparams hfirst
          obtain ⟨c, rest, rfl⟩ := List.exists_cons_of_ne_nil hparams
          have hblank := hbehind c rfl
          simp [hfirst c rfl] at hblank
    · cases hheader
  · rintro ⟨between, rfl, hname, hsolid, ⟨hblanks, hbetween⟩, hparams, hfirst⟩
    have hrun : ∀ c ∈ name, (!Text.isBlank c) = true := by simpa using hsolid
    have hstops : Text.Stops (fun c => !Text.isBlank c) (between ++ params) := by
      obtain ⟨c, more, rfl⟩ := List.exists_cons_of_ne_nil (hbetween rfl)
      intro d hd
      cases hd
      simpa using hblanks c List.mem_cons_self
    have htrimmed : Text.trimStart (between ++ params) = params :=
      Text.dropWhile_append_of_stops hblanks hfirst
    rw [header?, Text.takeWhile_append_of_stops hrun hstops,
      Text.dropWhile_append_of_stops hrun hstops, htrimmed]
    simp [hname, hparams]

/-- The strict reading of a text that begins with `@`, by its header. -/
theorem parse_of_header {text : String} (hat : (Text.trim text.toList).head? = some '@')
    {name params : List Char} (hheader : header? (Text.trim text.toList) = some (name, params)) :
    parse text true = (strictParams (Text.trimmed text) (tokens params)).map fun found =>
      some ⟨String.ofList name, found⟩ := by
  rw [parse]
  simp only [hat, ne_eq, not_true_eq_false, if_false, hheader, if_true, Text.trimmed]

theorem parse_of_no_header {text : String} (hat : (Text.trim text.toList).head? = some '@')
    (hheader : header? (Text.trim text.toList) = none) :
    parse text true = .error (.malformedDirective (Text.trimmed text)) := by
  rw [parse]
  simp only [hat, ne_eq, not_true_eq_false, if_false, hheader, if_true, Text.trimmed]

theorem exists_strictParams (text : String) (found : List Token) :
    (∃ params, found = params.map Token.param ∧ strictParams text found = .ok params) ∨
      ∃ token, strictParams text found = .error (.badToken token text) := by
  induction found with
  | nil => exact .inl ⟨[], rfl, rfl⟩
  | cons first rest ih =>
    cases first with
    | bad token => exact .inr ⟨token, rfl⟩
    | param p =>
      rw [strictParams]
      rcases ih with ⟨params, rfl, hok⟩ | ⟨token, hbad⟩
      · exact .inl ⟨p :: params, rfl, by rw [hok]; rfl⟩
      · exact .inr ⟨token, by rw [hbad]; rfl⟩

/-- The texts of the grammar, by what reading makes of them. -/
theorem isDirectiveText_trim_iff {needed : Bool} {s : List Char} :
    IsDirectiveText needed (Text.trim s) ↔
      ∃ name params, header? (Text.trim s) = some (name, params) ∧ IsReadable params ∧
        (needed = true → isSpaced params = true) := by
  constructor
  · intro htext
    generalize Text.trim s = trimmed at htext ⊢
    obtain ⟨hname, hsolid, hbetween, hparams⟩ := htext
    obtain ⟨c, rest, rfl, hc⟩ := hparams.exists_cons
    have hfirst : Text.Stops Text.isBlank (c :: rest) := by
      intro d hd
      cases hd
      exact hc
    refine ⟨_, _, header?_eq_some_iff.mpr
      ⟨_, rfl, hname, hsolid, hbetween, List.cons_ne_nil c rest, hfirst⟩, hparams.isReadable, ?_⟩
    intro h
    subst h
    exact hparams.isSpaced
  · rintro ⟨name, params, hheader, hparams⟩
    obtain ⟨between, htext, hname, hsolid, hbetween, hne, hfirst⟩ := header?_eq_some_iff.mp hheader
    have hlast := Text.stops_reverse_trim s
    rw [htext, ← List.append_assoc, ← List.cons_append] at hlast
    rw [htext]
    exact .intro hname hsolid hbetween
      ((isTokenList_iff hne hfirst (stops_reverse_of_append hlast)).mpr hparams)

/-- What strict reading makes of a text that begins with `@`. -/
theorem parse_strict_cases {text : String} (hat : (Text.trim text.toList).head? = some '@') :
    (header? (Text.trim text.toList) = none ∧
        parse text true = .error (.malformedDirective (Text.trimmed text))) ∨
      ∃ name params, header? (Text.trim text.toList) = some (name, params) ∧
        ((IsReadable params ∧ ∃ d, parse text true = .ok (some d)) ∨
          (¬ IsReadable params ∧
            ∃ token, parse text true = .error (.badToken token (Text.trimmed text)))) := by
  cases hheader : header? (Text.trim text.toList) with
  | none => exact .inl ⟨rfl, parse_of_no_header hat hheader⟩
  | some header =>
    obtain ⟨name, params⟩ := header
    refine .inr ⟨name, params, rfl, ?_⟩
    rw [parse_of_header hat hheader]
    rcases exists_strictParams (Text.trimmed text) (tokens params) with
      ⟨found, hfound, hok⟩ | ⟨token, hbad⟩
    · rw [hok]
      exact .inl ⟨⟨found, hfound⟩, _, rfl⟩
    · rw [hbad]
      refine .inr ⟨?_, token, rfl⟩
      rintro ⟨found, hfound⟩
      rw [hfound, strictParams_map] at hbad
      cases hbad

/-- Strict reading of a text that begins with `@` yields a directive exactly for the texts of the
grammar in which tokens need no blanks between them. Those with blanks between the tokens are the ones
among them whose tokens, as they are read, have a blank or nothing behind them. For all other texts it
fails, as malformed or at a bad token. -/
theorem parse_strict_iff_isDirectiveText {text : String}
    (hat : (Text.trim text.toList).head? = some '@') :
    ((∃ d, parse text true = .ok (some d)) ↔ IsDirectiveText false (Text.trim text.toList)) ∧
      (IsDirectiveText true (Text.trim text.toList) ↔ (∃ d, parse text true = .ok (some d)) ∧
        ∃ name params, header? (Text.trim text.toList) = some (name, params) ∧
          isSpaced params = true) ∧
      (¬ IsDirectiveText false (Text.trim text.toList) →
        parse text true = .error (.malformedDirective (Text.trimmed text)) ∨
          ∃ token, parse text true = .error (.badToken token (Text.trimmed text))) := by
  simp only [isDirectiveText_trim_iff]
  rcases parse_strict_cases hat with ⟨hheader, hfails⟩ | ⟨name, params, hheader, hread⟩
  · simp [hheader, hfails]
  · rcases hread with ⟨hreadable, d, hok⟩ | ⟨hunreadable, token, hfails⟩
    · simp [hheader, hreadable, hok]
    · simp [hheader, hunreadable, hfails]

theorem parse_strict_iff_isDirectiveText_label :
    (Text.trim "@field \"data.x\" label=\"Say\" required".toList).head? = some '@' ∧
      (∃ d, parse "@field \"data.x\" label=\"Say\" required" true = .ok (some d)) ∧
      IsDirectiveText true (Text.trim "@field \"data.x\" label=\"Say\" required".toList) := by
  have hat : (Text.trim "@field \"data.x\" label=\"Say\" required".toList).head? = some '@' := by
    decide +kernel
  obtain ⟨_, hspaced, _⟩ := parse_strict_iff_isDirectiveText hat
  have hread : parse "@field \"data.x\" label=\"Say\" required" true =
      .ok (some ⟨"field", [.positional "data.x", .named "label" "Say", .flag "required"]⟩) := by cbv
  have hheader : header? (Text.trim "@field \"data.x\" label=\"Say\" required".toList) =
      some ("field".toList, "\"data.x\" label=\"Say\" required".toList) := by decide +kernel
  have hapart : isSpaced "\"data.x\" label=\"Say\" required".toList = true := by cbv
  exact ⟨hat, ⟨_, hread⟩, hspaced.mpr ⟨⟨_, hread⟩, _, _, hheader, hapart⟩⟩

/-- A label with quotation marks inside it. -/
def gluedLabel : String := "@field \"data.x\" label=\"Say \"required\" now\""

/-- The word in the inner quotation marks becomes a flag, though it touches its neighbours. -/
theorem parse_gluedLabel :
    (Text.trim gluedLabel.toList).head? = some '@' ∧
      parse gluedLabel true = .ok (some ⟨"field", [.positional "data.x", .named "label" "Say ",
        .flag "required", .positional " now"]⟩) ∧
      ¬ IsDirectiveText true (Text.trim gluedLabel.toList) := by
  have hat : (Text.trim gluedLabel.toList).head? = some '@' := by decide +kernel
  have hread : parse gluedLabel true = .ok (some ⟨"field", [.positional "data.x",
      .named "label" "Say ", .flag "required", .positional " now"]⟩) := by cbv
  refine ⟨hat, hread, fun htext => ?_⟩
  obtain ⟨name, params, hheader, _, hspaced⟩ := isDirectiveText_trim_iff.mp htext
  have hparams : header? (Text.trim gluedLabel.toList) = some ("field".toList,
      "\"data.x\" label=\"Say \"required\" now\"".toList) := by decide +kernel
  rw [hparams] at hheader
  cases hheader
  have htouching : isSpaced "\"data.x\" label=\"Say \"required\" now\"".toList = false := by cbv
  rw [hspaced rfl] at htouching
  cases htouching

end DocModel.Directive
