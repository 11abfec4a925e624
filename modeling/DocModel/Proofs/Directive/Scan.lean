import DocModel.Proofs.Directive.Grammar

/-!
How the text behind the name of a directive is cut into tokens. At each place the first form that fits is
taken: a quoted value, a named value, a flag; and if none fits, everything up to the next blank is a bad
token, behind which the cutting goes on.
-/

namespace DocModel.Directive

/-- The tokens that a text is cut into, from left to right. -/
inductive Scanned : List Char → List Token → Prop
  | done : Scanned [] []
  | blank {c : Char} {rest : List Char} {found : List Token} (hc : Text.isBlank c = true)
      (hrest : Scanned rest found) : Scanned (c :: rest) found
  | quoted {value rest : List Char} {found : List Token} (hvalue : '"' ∉ value)
      (hrest : Scanned rest found) :
      Scanned ('"' :: (value ++ '"' :: rest)) (.param (.positional (String.ofList value)) :: found)
  | named {c : Char} {name value rest : List Char} {found : List Token} (hc : isNameStart c = true)
      (hname : ∀ d ∈ name, isNameChar d = true) (hvalue : '"' ∉ value)
      (hrest : Scanned rest found) :
      Scanned (c :: (name ++ '=' :: '"' :: (value ++ '"' :: rest)))
        (.param (.named (String.ofList (c :: name)) (String.ofList value)) :: found)
  /-- A name up to its last character, behind which no value stands. -/
  | flag {c : Char} {name rest : List Char} {found : List Token} (hc : isNameStart c = true)
      (hname : ∀ d ∈ name, isNameChar d = true) (hstops : Text.Stops isNameChar rest)
      (hunassigned : ∀ value more, rest ≠ '=' :: '"' :: (value ++ '"' :: more))
      (hrest : Scanned rest found) :
      Scanned (c :: (name ++ rest)) (.param (.flag (String.ofList (c :: name))) :: found)
  /-- Everything up to the next blank. A quotation mark begins it only if no other one follows. -/
  | bad {c : Char} {run rest : List Char} {found : List Token} (hc : Text.isBlank c = false)
      (hstart : isNameStart c = false) (hopen : c = '"' → '"' ∉ run ++ rest)
      (hrun : ∀ d ∈ run, Text.isBlank d = false) (hstops : Text.Stops (!Text.isBlank ·) rest)
      (hrest : Scanned rest found) :
      Scanned (c :: (run ++ rest)) (.bad (String.ofList (c :: run)) :: found)

theorem untilQuote?_eq_none_iff {s : List Char} : untilQuote? s = none ↔ '"' ∉ s := by
  constructor
  · intro hnone hmem
    obtain ⟨value, rest, rfl, hvalue⟩ := List.eq_append_cons_of_mem hmem
    rw [untilQuote?_append hvalue] at hnone
    cases hnone
  · intro hmem
    cases hparts : untilQuote? s with
    | none => rfl
    | some parts =>
      obtain ⟨value, behind⟩ := parts
      rw [eq_append_of_untilQuote? hparts] at hmem
      simp at hmem

theorem assigned?_eq_none_iff {s : List Char} :
    assigned? s = none ↔ ∀ value more, s ≠ '=' :: '"' :: (value ++ '"' :: more) := by
  constructor
  · rintro hnone value more rfl
    have hquote := untilQuote?_eq_none_iff.mp (show untilQuote? (value ++ '"' :: more) = none from hnone)
    simp at hquote
  · intro hunassigned
    cases hparts : assigned? s with
    | none => rfl
    | some parts =>
      obtain ⟨value, behind⟩ := parts
      exact absurd (eq_append_of_assigned? hparts) (hunassigned value behind)

section Names

variable {c : Char} {name rest : List Char}

theorem nameToken_of_unassigned (hname : ∀ d ∈ name, isNameChar d = true)
    (hstops : Text.Stops isNameChar rest)
    (hunassigned : ∀ value more, rest ≠ '=' :: '"' :: (value ++ '"' :: more)) :
    nameToken c (name ++ rest) = (.param (.flag (String.ofList (c :: name))), rest) := by
  rw [nameToken, Text.takeWhile_append_of_stops hname hstops,
    Text.dropWhile_append_of_stops hname hstops]
  simp only [assigned?_eq_none_iff.mpr hunassigned]

theorem nextToken_of_bad {run : List Char} (hstart : isNameStart c = false)
    (hopen : c = '"' → '"' ∉ run ++ rest) (hrun : ∀ d ∈ run, Text.isBlank d = false)
    (hstops : Text.Stops (!Text.isBlank ·) rest) :
    nextToken c (run ++ rest) = (.bad (String.ofList (c :: run)), rest) := by
  have hsolid : ∀ d ∈ run, (!Text.isBlank d) = true := by simpa using hrun
  have hbad : badToken c (run ++ rest) = (.bad (String.ofList (c :: run)), rest) := by
    rw [badToken, Text.takeWhile_append_of_stops hsolid hstops,
      Text.dropWhile_append_of_stops hsolid hstops]
  rw [nextToken]
  split
  · next hquote => rw [untilQuote?_eq_none_iff.mpr (hopen hquote), hbad]
  · rw [if_neg (by simp [hstart]), hbad]

end Names

theorem Scanned.tokens_eq {s : List Char} {found : List Token} (hs : Scanned s found) :
    tokens s = found := by
  induction hs with
  | done => simp [tokens]
  | blank hc _ ih => rw [tokens, if_pos hc, ih]
  | quoted hvalue _ ih => rw [tokens_cons (by decide), nextToken_quoted hvalue, ih]
  | named hc hname hvalue _ ih =>
    rw [tokens_cons (isBlank_of_isNameChar (isNameChar_of_isNameStart hc)),
      nextToken_named hc hname hvalue, ih]
  | flag hc hname hstops hunassigned _ ih =>
    rw [tokens_cons (isBlank_of_isNameChar (isNameChar_of_isNameStart hc)),
      nextToken_of_isNameStart hc, nameToken_of_unassigned hname hstops hunassigned, ih]
  | bad hc hstart hopen hrun hstops _ ih =>
    rw [tokens_cons hc, nextToken_of_bad hstart hopen hrun hstops, ih]

/-- Every text is a run of characters that pass a test, and a rest that stops it. -/
theorem exists_run (test : Char → Bool) (s : List Char) :
    ∃ run rest, s = run ++ rest ∧ (∀ c ∈ run, test c = true) ∧ Text.Stops test rest :=
  ⟨_, _, List.takeWhile_append_dropWhile.symm,
    fun c hc => List.all_eq_true.mp List.all_takeWhile c hc, Text.stops_dropWhile test s⟩

/-- Reading one token takes the form that fits, and leaves what is behind it. -/
theorem Scanned.cons {c : Char} {rest : List Char} {found : List Token}
    (hc : Text.isBlank c = false) (hbehind : Scanned (nextToken c rest).2 found) :
    Scanned (c :: rest) ((nextToken c rest).1 :: found) := by
  cases hstart : isNameStart c with
  | true =>
    obtain ⟨name, behind, rfl, hname, hstops⟩ := exists_run isNameChar rest
    cases hassigned : assigned? behind with
    | some parts =>
      obtain ⟨value, left⟩ := parts
      have hvalue := not_mem_of_assigned? hassigned
      rw [eq_append_of_assigned? hassigned, nextToken_named hstart hname hvalue] at hbehind ⊢
      exact .named hstart hname hvalue hbehind
    | none =>
      have hunassigned := assigned?_eq_none_iff.mp hassigned
      rw [nextToken_of_isNameStart hstart,
        nameToken_of_unassigned hname hstops hunassigned] at hbehind ⊢
      exact .flag hstart hname hstops hunassigned hbehind
  | false =>
    by_cases hquote : c = '"' ∧ '"' ∈ rest
    · obtain ⟨rfl, hmem⟩ := hquote
      obtain ⟨value, left, rfl, hvalue⟩ := List.eq_append_cons_of_mem hmem
      rw [nextToken_quoted hvalue] at hbehind ⊢
      exact .quoted hvalue hbehind
    · have hopen : c = '"' → '"' ∉ rest := fun h hmem => hquote ⟨h, hmem⟩
      obtain ⟨run, behind, rfl, hrun, hstops⟩ := exists_run (!Text.isBlank ·) rest
      have hsolid : ∀ d ∈ run, Text.isBlank d = false := by simpa using hrun
      rw [nextToken_of_bad hstart hopen hsolid hstops] at hbehind ⊢
      exact .bad hc hstart hopen hsolid hstops hbehind

theorem scanned_tokens (s : List Char) : Scanned s (tokens s) := by
  induction s using tokens.induct with
  | case1 =>
    rw [tokens]
    exact .done
  | case2 c rest hc ih =>
    rw [tokens, if_pos hc]
    exact .blank hc ih
  | case3 c rest hc _ ih =>
    have hc : Text.isBlank c = false := by simpa using hc
    rw [tokens_cons hc]
    exact ih.cons hc

theorem scanned_iff {s : List Char} {found : List Token} : Scanned s found ↔ tokens s = found :=
  ⟨Scanned.tokens_eq, fun h => h ▸ scanned_tokens s⟩

end DocModel.Directive
