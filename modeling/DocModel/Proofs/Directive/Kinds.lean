import DocModel.Proofs.Directive.Leniency

/-!
The kinds in which the parameters of a directive are written, and what strict reading keeps of them. A
text settles the kind of each parameter, but a parameter that has been read counts as a quoted value
when its value is its name, and it is found under its name whatever its kind was.
-/

namespace DocModel

/-- A parameter as it is written. -/
inductive WrittenParam where
  | quoted (value : String)
  | named (name value : String)
  | flag (name : String)
deriving DecidableEq

namespace WrittenParam

/-- What reading makes of a parameter. -/
def param : WrittenParam → Param
  | quoted value => .positional value
  | named name value => .named name value
  | flag name => .flag name

def isQuoted : WrittenParam → Bool
  | quoted _ => true
  | _ => false

/-- The text that a parameter is found under: its name, or a quoted value itself. -/
def key : WrittenParam → String
  | quoted value => value
  | named name _ => name
  | flag name => name

/-- The quoted value that a parameter counts as. A named value counts if it is its own name. -/
def positional? : WrittenParam → Option String
  | quoted value => some value
  | named name value => if name = value then some value else none
  | flag _ => none

/-- The value under a name, by the named values and the flags alone. The first one of them with that
name counts, and an empty value counts as none. -/
def value? (key : String) : List WrittenParam → Option String
  | [] => none
  | quoted _ :: rest => value? key rest
  | named name value :: rest =>
    if name = key then (some value).filter (· ≠ "") else value? key rest
  | flag name :: rest => if name = key then none else value? key rest

@[simp]
theorem param_name (w : WrittenParam) : w.param.name = w.key := by
  cases w <;> rfl

/-- Reading forgets no more than whether a parameter was quoted. -/
theorem eq_of_param_eq {w other : WrittenParam} (hparam : w.param = other.param)
    (hquoted : w.isQuoted = other.isQuoted) : w = other := by
  cases w <;> cases other <;>
    simp_all [param, isQuoted, Param.positional, Param.named, Param.flag]

theorem positional?_eq (w : WrittenParam) :
    w.positional? = if w.param.isPositional then w.param.value else none := by
  cases w with
  | quoted value => simp [positional?, param, Param.isPositional, Param.positional]
  | named name value =>
    simp only [positional?, param, Param.isPositional, Param.named, beq_iff_eq, Option.some.injEq,
      eq_comm (a := name)]
  | flag name => rfl

theorem positional?_eq_some_iff {w : WrittenParam} {value : String} :
    w.positional? = some value ↔ w = quoted value ∨ w = named value value := by
  cases w with
  | quoted other => simp [positional?]
  | flag name => simp [positional?]
  | named name other =>
    simp only [positional?]
    split
    · next heq => simp [heq]
    · next hne =>
      simp only [reduceCtorEq, named.injEq, false_or, false_iff, not_and]
      rintro rfl rfl
      exact hne rfl

end WrittenParam

namespace Directive

/-- What may stand behind a flag: nothing, a blank or a quotation mark. -/
def EndsFlag (rest : List Char) : Prop := ∀ c ∈ rest.head?, Text.isBlank c = true ∨ c = '"'

/-- The parameters that are written in a text in front of some rest of it. -/
inductive Spelled : List Char → List WrittenParam → List Char → Prop
  | done {rest : List Char} : Spelled rest [] rest
  | blank {c : Char} {s rest : List Char} {written : List WrittenParam}
      (hc : Text.isBlank c = true) (hs : Spelled s written rest) : Spelled (c :: s) written rest
  | quoted {value s rest : List Char} {written : List WrittenParam} (hvalue : '"' ∉ value)
      (hs : Spelled s written rest) :
      Spelled ('"' :: (value ++ '"' :: s)) (.quoted (String.ofList value) :: written) rest
  | named {c : Char} {name value s rest : List Char} {written : List WrittenParam}
      (hc : isNameStart c = true) (hname : ∀ d ∈ name, isNameChar d = true) (hvalue : '"' ∉ value)
      (hs : Spelled s written rest) :
      Spelled (c :: (name ++ '=' :: '"' :: (value ++ '"' :: s)))
        (.named (String.ofList (c :: name)) (String.ofList value) :: written) rest
  | flag {c : Char} {name s rest : List Char} {written : List WrittenParam}
      (hc : isNameStart c = true) (hname : ∀ d ∈ name, isNameChar d = true) (hends : EndsFlag s)
      (hs : Spelled s written rest) :
      Spelled (c :: (name ++ s)) (.flag (String.ofList (c :: name)) :: written) rest

theorem EndsFlag.stops {rest : List Char} (hrest : EndsFlag rest) : Text.Stops isNameChar rest := by
  intro c hc
  by_contra hchar
  rcases hrest c hc with hblank | rfl
  · rw [isBlank_of_isNameChar (by simpa using hchar)] at hblank
    cases hblank
  · exact hchar (by decide)

theorem EndsFlag.unassigned {rest : List Char} (hrest : EndsFlag rest) (value more : List Char) :
    rest ≠ '=' :: '"' :: (value ++ '"' :: more) := by
  rintro rfl
  rcases hrest '=' rfl with hblank | hquote
  · exact absurd hblank (by decide)
  · exact absurd hquote (by decide)

/-- Only the first character behind a flag matters. -/
theorem EndsFlag.replace {front rest other : List Char} (hends : EndsFlag (front ++ rest))
    (hother : EndsFlag other) : EndsFlag (front ++ other) := by
  cases front with
  | nil => exact hother
  | cons c front => exact hends

namespace Spelled

variable {s middle rest : List Char} {written before after : List WrittenParam}

theorem append (hbefore : Spelled s before middle) (hafter : Spelled middle after rest) :
    Spelled s (before ++ after) rest := by
  induction hbefore with
  | done => exact hafter
  | blank hc _ ih => exact .blank hc (ih hafter)
  | quoted hvalue _ ih => exact .quoted hvalue (ih hafter)
  | named hc hname hvalue _ ih => exact .named hc hname hvalue (ih hafter)
  | flag hc hname hends _ ih => exact .flag hc hname hends (ih hafter)

/-- Splitting goes on behind the first parameter. -/
theorem split_of_cons {text : List Char} {w : WrittenParam}
    (hcons : ∀ {more middle}, Spelled s more middle → Spelled text (w :: more) middle)
    (hs : Spelled s written rest) (hparts : before ++ after = w :: written)
    (hsplit : ∀ {before}, before ++ after = written →
      ∃ middle, Spelled s before middle ∧ Spelled middle after rest) :
    ∃ middle, Spelled text before middle ∧ Spelled middle after rest := by
  rcases List.append_eq_cons_iff.mp hparts with ⟨rfl, rfl⟩ | ⟨more, rfl, hmore⟩
  · exact ⟨text, .done, hcons hs⟩
  · obtain ⟨middle, hbefore, hafter⟩ := hsplit hmore.symm
    exact ⟨middle, hcons hbefore, hafter⟩

theorem split (hs : Spelled s (before ++ after) rest) :
    ∃ middle, Spelled s before middle ∧ Spelled middle after rest := by
  generalize hparts : before ++ after = written at hs
  induction hs generalizing before with
  | done =>
    obtain ⟨rfl, rfl⟩ := List.append_eq_nil_iff.mp hparts
    exact ⟨_, .done, .done⟩
  | blank hc _ ih =>
    obtain ⟨middle, hbefore, hafter⟩ := ih hparts
    exact ⟨middle, .blank hc hbefore, hafter⟩
  | quoted hvalue hs ih => exact split_of_cons (.quoted hvalue) hs hparts ih
  | named hc hname hvalue hs ih => exact split_of_cons (.named hc hname hvalue) hs hparts ih
  | flag hc hname hends hs ih => exact split_of_cons (.flag hc hname hends) hs hparts ih

/-- The text in front of the rest holds the same parameters in front of any other rest that a flag may
end at. -/
theorem exists_front (hs : Spelled s written rest) :
    ∃ front, s = front ++ rest ∧ written.length ≤ front.length ∧
      ∀ other, EndsFlag other → Spelled (front ++ other) written other := by
  induction hs with
  | done => exact ⟨[], rfl, Nat.le_refl 0, fun other _ => .done⟩
  | @blank c s rest written hc _ ih =>
    obtain ⟨front, rfl, hlength, hfront⟩ := ih
    exact ⟨c :: front, rfl, Nat.le_succ_of_le hlength, fun other hother =>
      .blank hc (hfront other hother)⟩
  | @quoted value s rest written hvalue _ ih =>
    obtain ⟨front, rfl, hlength, hfront⟩ := ih
    refine ⟨'"' :: (value ++ '"' :: front), by simp, ?_, fun other hother => ?_⟩
    · simp only [List.length_cons, List.length_append]
      omega
    · simpa using Spelled.quoted hvalue (hfront other hother)
  | @named c name value s rest written hc hname hvalue _ ih =>
    obtain ⟨front, rfl, hlength, hfront⟩ := ih
    refine ⟨c :: (name ++ '=' :: '"' :: (value ++ '"' :: front)), by simp, ?_, fun other hother => ?_⟩
    · simp only [List.length_cons, List.length_append]
      omega
    · simpa using Spelled.named hc hname hvalue (hfront other hother)
  | @flag c name s rest written hc hname hends _ ih =>
    obtain ⟨front, rfl, hlength, hfront⟩ := ih
    refine ⟨c :: (name ++ front), by simp, ?_, fun other hother => ?_⟩
    · simp only [List.length_cons, List.length_append]
      omega
    · simpa using Spelled.flag hc hname (hends.replace hother) (hfront other hother)

/-- A quoted value that is put in, behind a blank, is one more parameter at that place. -/
theorem insert_quoted (hbefore : Spelled s before middle) (hafter : Spelled middle after rest)
    {value : List Char} (hvalue : '"' ∉ value) :
    ∃ front, s = front ++ middle ∧ before.length ≤ front.length ∧
      Spelled (front ++ ' ' :: '"' :: (value ++ '"' :: middle))
        (before ++ .quoted (String.ofList value) :: after) rest := by
  obtain ⟨front, rfl, hlength, hfront⟩ := hbefore.exists_front
  refine ⟨front, rfl, hlength, (hfront _ fun c hc => .inl ?_).append
    (.blank (by decide) (.quoted hvalue hafter))⟩
  cases hc
  decide

end Spelled

section Reading

variable {c : Char} {s rest : List Char} {written : List WrittenParam}

theorem Spelled.of_blank (hc : Text.isBlank c = true) (hs : Spelled (c :: rest) written []) :
    Spelled rest written [] := by
  cases hs with
  | blank _ hs => exact hs
  | quoted _ _ => exact absurd hc (by decide)
  | named hstart _ _ _ => simp [isBlank_of_isNameChar (isNameChar_of_isNameStart hstart)] at hc
  | flag hstart _ _ _ => simp [isBlank_of_isNameChar (isNameChar_of_isNameStart hstart)] at hc

/-- The first parameter is the one that reading finds, and it is quoted if a quotation mark begins
it. -/
theorem Spelled.exists_cons (hc : Text.isBlank c = false) (hs : Spelled (c :: rest) written []) :
    ∃ w more, written = w :: more ∧ (nextToken c rest).1 = .param w.param ∧
      w.isQuoted = decide (c = '"') ∧ Spelled (nextToken c rest).2 more [] := by
  cases hs with
  | blank hblank _ => simp [hc] at hblank
  | quoted hvalue hs =>
    rw [nextToken_quoted hvalue]
    exact ⟨_, _, rfl, rfl, rfl, hs⟩
  | named hstart hname hvalue hs =>
    rw [nextToken_named hstart hname hvalue]
    exact ⟨_, _, rfl, rfl, (decide_eq_false (ne_quote_of_isNameStart hstart)).symm, hs⟩
  | flag hstart hname hends hs =>
    rw [nextToken_of_isNameStart hstart, nameToken_of_unassigned hname hends.stops hends.unassigned]
    exact ⟨_, _, rfl, rfl, (decide_eq_false (ne_quote_of_isNameStart hstart)).symm, hs⟩

theorem Spelled.tokens_eq (hs : Spelled s written []) :
    tokens s = (written.map WrittenParam.param).map .param := by
  induction s using tokens.induct generalizing written with
  | case1 =>
    cases hs
    simp [tokens]
  | case2 c rest hc ih => rw [tokens, if_pos hc, ih (hs.of_blank hc)]
  | case3 c rest hc _ ih =>
    have hc : Text.isBlank c = false := by simpa using hc
    obtain ⟨w, more, rfl, hfirst, _, hmore⟩ := hs.exists_cons hc
    rw [tokens_cons hc, hfirst, ih hmore]
    rfl

/-- A text settles the kinds of its parameters. -/
theorem Spelled.unique {other : List WrittenParam} (hs : Spelled s written [])
    (hother : Spelled s other []) : other = written := by
  induction s using tokens.induct generalizing written other with
  | case1 =>
    cases hs
    cases hother
    rfl
  | case2 c rest hc ih => exact ih (hs.of_blank hc) (hother.of_blank hc)
  | case3 c rest hc _ ih =>
    have hc : Text.isBlank c = false := by simpa using hc
    obtain ⟨w, more, rfl, hw, hquoted, hmore⟩ := hs.exists_cons hc
    obtain ⟨w', more', rfl, hw', hquoted', hmore'⟩ := hother.exists_cons hc
    have hparam : w'.param = w.param := Token.param.inj (hw'.symm.trans hw)
    rw [WrittenParam.eq_of_param_eq hparam (hquoted'.trans hquoted.symm), ih hmore hmore']

/-- In a readable text nothing else stands behind a flag. -/
theorem endsFlag_of_isReadable (hrest : IsReadable rest) (hstops : Text.Stops isNameChar rest) :
    EndsFlag rest := by
  intro c hc
  cases rest with
  | nil => cases hc
  | cons d more =>
    cases hc
    refine blank_or_quote_of_isReadable hrest ?_
    by_contra hstart
    have hchar := isNameChar_of_isNameStart (by simpa using hstart)
    rw [hstops c rfl] at hchar
    cases hchar

theorem exists_spelled_of_scanned {found : List Token} (hs : Scanned s found)
    {params : List Param} (hparams : found = params.map .param) :
    ∃ written, Spelled s written [] := by
  induction hs generalizing params with
  | done => exact ⟨[], .done⟩
  | blank hc _ ih =>
    obtain ⟨written, hwritten⟩ := ih hparams
    exact ⟨written, .blank hc hwritten⟩
  | quoted hvalue _ ih =>
    obtain ⟨_, _, rfl, _, hmore⟩ := List.map_eq_cons_iff.mp hparams.symm
    obtain ⟨written, hwritten⟩ := ih hmore.symm
    exact ⟨_, .quoted hvalue hwritten⟩
  | named hc hname hvalue _ ih =>
    obtain ⟨_, _, rfl, _, hmore⟩ := List.map_eq_cons_iff.mp hparams.symm
    obtain ⟨written, hwritten⟩ := ih hmore.symm
    exact ⟨_, .named hc hname hvalue hwritten⟩
  | flag hc hname hstops _ hrest ih =>
    obtain ⟨_, more, rfl, _, hmore⟩ := List.map_eq_cons_iff.mp hparams.symm
    obtain ⟨written, hwritten⟩ := ih hmore.symm
    have hreadable : IsReadable _ := ⟨more, hrest.tokens_eq.trans hmore.symm⟩
    exact ⟨_, .flag hc hname (endsFlag_of_isReadable hreadable hstops) hwritten⟩
  | bad _ _ _ _ _ _ _ =>
    obtain ⟨_, _, _, hbad, _⟩ := List.map_eq_cons_iff.mp hparams.symm
    cases hbad

theorem isReadable_iff_exists_spelled : IsReadable s ↔ ∃ written, Spelled s written [] :=
  ⟨fun ⟨_, hparams⟩ => exists_spelled_of_scanned (scanned_tokens s) hparams,
    fun ⟨_, hwritten⟩ => ⟨_, hwritten.tokens_eq⟩⟩

end Reading

/-- A text is a directive with a name and with parameters of the given kinds. -/
def IsWrittenAs (text name : String) (written : List WrittenParam) : Prop :=
  ∃ params, header? (Text.trim text.toList) = some (name.toList, params) ∧
    Spelled params written []

section Texts

variable {text name : String} {written : List WrittenParam}

theorem IsWrittenAs.unique {other : List WrittenParam} (hwritten : IsWrittenAs text name written)
    (hother : IsWrittenAs text name other) : other = written := by
  obtain ⟨params, hheader, hparams⟩ := hwritten
  obtain ⟨params', hheader', hparams'⟩ := hother
  rw [hheader] at hheader'
  cases hheader'
  exact hparams.unique hparams'

theorem IsWrittenAs.parse_eq (hwritten : IsWrittenAs text name written) :
    parse text true = .ok (some ⟨name, written.map WrittenParam.param⟩) := by
  obtain ⟨params, hheader, hparams⟩ := hwritten
  obtain ⟨_, htext, _⟩ := header?_eq_some_iff.mp hheader
  have hat : (Text.trim text.toList).head? = some '@' := by rw [htext]; rfl
  rw [parse_of_header hat hheader, hparams.tokens_eq, strictParams_map, String.ofList_toList]
  rfl

theorem exists_isWrittenAs_of_parse {d : Directive} (hread : parse text true = .ok (some d)) :
    ∃ written, IsWrittenAs text d.name written ∧ d = ⟨d.name, written.map WrittenParam.param⟩ := by
  have hat : (Text.trim text.toList).head? = some '@' := by
    by_contra hat
    rw [parse_of_not_at hat] at hread
    cases hread
  rcases parse_strict_cases hat with ⟨_, hfails⟩ | ⟨name, params, hheader, hreadable | hbad⟩
  · rw [hread] at hfails
    cases hfails
  · obtain ⟨written, hwritten⟩ := isReadable_iff_exists_spelled.mp hreadable.1
    have htext : IsWrittenAs text (String.ofList name) written :=
      ⟨params, by rw [hheader, String.toList_ofList], hwritten⟩
    have hsame := htext.parse_eq
    rw [hread] at hsame
    cases hsame
    exact ⟨written, htext, rfl⟩
  · obtain ⟨_, token, hfails⟩ := hbad
    rw [hread] at hfails
    cases hfails

/-- A quoted value can be put into the text of a directive behind any of its parameters. -/
theorem IsWrittenAs.exists_insert_quoted {before after : List WrittenParam}
    (hwritten : IsWrittenAs text name (before ++ after)) (hbefore : before ≠ []) {value : String}
    (hvalue : '"' ∉ value.toList) :
    ∃ front back, Text.trim text.toList = front ++ back ∧
      IsWrittenAs (String.ofList (front ++ ' ' :: '"' :: (value.toList ++ '"' :: back))) name
        (before ++ .quoted value :: after) := by
  obtain ⟨params, hheader, hparams⟩ := hwritten
  obtain ⟨between, htext, hname, hsolid, hbetween, _, hfirst⟩ := header?_eq_some_iff.mp hheader
  obtain ⟨back, hfront, hback⟩ := hparams.split
  obtain ⟨front, rfl, hlength, hinserted⟩ := hfront.insert_quoted hback hvalue
  rw [String.ofList_toList] at hinserted
  have hfrontNe : front ≠ [] := by
    rintro rfl
    exact hbefore (List.length_eq_zero_iff.mp (Nat.le_zero.mp hlength))
  have hfirst : Text.Stops Text.isBlank front := by
    obtain ⟨c, more, rfl⟩ := List.exists_cons_of_ne_nil hfrontNe
    exact hfirst
  have hlast : Text.Stops Text.isBlank ('"' :: back).reverse := by
    have hback : Text.Stops Text.isBlank back.reverse := by
      have htrimmed := Text.stops_reverse_trim text.toList
      rw [htext, ← List.append_assoc, ← List.append_assoc, ← List.cons_append] at htrimmed
      exact stops_reverse_of_append htrimmed
    rw [List.reverse_cons]
    cases back with
    | nil => exact (isTrimmed_singleton (by decide)).last
    | cons c back => exact stops_append hback (by simp) _
  refine ⟨'@' :: (name.toList ++ (between ++ front)), back, by rw [htext]; simp, ?_⟩
  refine ⟨_, header?_eq_some_iff.mpr ⟨between, ?_, hname, hsolid, hbetween, ?_, ?_⟩, hinserted⟩
  · rw [String.toList_ofList, Text.trim_eq_self]
    · simp
    · intro c hc
      cases hc
      decide
    · have hparts : '@' :: (name.toList ++ (between ++ front)) ++
          ' ' :: '"' :: (value.toList ++ '"' :: back) =
          '@' :: (name.toList ++ (between ++ front)) ++ ' ' :: '"' :: value.toList ++ '"' :: back := by
        simp
      rw [hparts, List.reverse_append]
      exact stops_append hlast (by simp) _
  · simp
  · exact stops_append hfirst hfrontNe _

end Texts

/-- How the look-ups in a directive see the parameters that are written in its text. -/
structure IsReadFrom (d : Directive) (written : List WrittenParam) : Prop where
  /-- A first parameter `v="v"` counts as the quoted value `v`. -/
  firstPositional?_iff : ∀ v, d.firstPositional? = some v ↔
    written.head? = some (.quoted v) ∨ written.head? = some (.named v v)
  /-- So does any other one. -/
  positionals_eq : d.positionals = written.filterMap WrittenParam.positional?
  /-- A quoted value counts as a value under itself, if nothing before it is found under that name. -/
  named?_eq : ∀ key, d.named? key =
    if written.tail.find? (·.key == key) = some (.quoted key) then (some key).filter (· ≠ "")
    else WrittenParam.value? key written.tail
  /-- A quoted value counts as a flag of its text. -/
  flag_iff : ∀ key, d.flag key = true ↔ .flag key ∈ written.tail ∨
    (∃ value, .named key value ∈ written.tail) ∨ .quoted key ∈ written.tail

section LookUp

variable {written : List WrittenParam}

theorem positionals_map_param (name : String) (written : List WrittenParam) :
    positionals ⟨name, written.map WrittenParam.param⟩ =
      written.filterMap WrittenParam.positional? := by
  induction written with
  | nil => rfl
  | cons w rest ih =>
    have hfirst := w.positional?_eq
    simp only [positionals, List.map_cons, List.filter_cons] at ih ⊢
    cases hpositional : w.param.isPositional with
    | true => rw [if_pos rfl, List.filterMap_cons, List.filterMap_cons, ih, hfirst, if_pos hpositional]
    | false =>
      rw [hpositional] at hfirst
      rw [if_neg (by simp), List.filterMap_cons, hfirst, ih]
      rfl

/-- A look-up under a name stops at the first parameter that is found under it, of whatever kind. -/
theorem value_find?_map_param (key : String) (written : List WrittenParam) :
    (((written.map WrittenParam.param).find? (·.name == key)).bind Param.value).filter (· ≠ "") =
      if written.find? (·.key == key) = some (.quoted key) then (some key).filter (· ≠ "")
      else WrittenParam.value? key written := by
  induction written with
  | nil => rfl
  | cons w rest ih =>
    rw [List.map_cons, List.find?_cons, List.find?_cons, WrittenParam.param_name]
    by_cases hkey : w.key = key
    · subst hkey
      cases w <;> simp [WrittenParam.key, WrittenParam.param, WrittenParam.value?, Param.positional,
        Param.named, Param.flag]
    · have hother : (w.key == key) = false := beq_false_of_ne hkey
      have hvalue : WrittenParam.value? key (w :: rest) = WrittenParam.value? key rest := by
        cases w with
        | quoted _ => rfl
        | named _ _ => exact if_neg hkey
        | flag _ => exact if_neg hkey
      rw [hother, hvalue]
      exact ih

theorem mem_iff_exists_key {key : String} :
    (∃ w ∈ written, w.key = key) ↔ .flag key ∈ written ∨ (∃ value, .named key value ∈ written) ∨
      .quoted key ∈ written := by
  constructor
  · rintro ⟨w, hw, rfl⟩
    cases w with
    | quoted value => exact .inr (.inr hw)
    | named name value => exact .inr (.inl ⟨value, hw⟩)
    | flag name => exact .inl hw
  · rintro (hw | ⟨value, hw⟩ | hw) <;> exact ⟨_, hw, rfl⟩

theorem firstPositional?_map_param (name : String) (written : List WrittenParam) :
    firstPositional? ⟨name, written.map WrittenParam.param⟩ =
      written.head?.bind WrittenParam.positional? := by
  cases written with
  | nil => rfl
  | cons w rest => exact w.positional?_eq.symm

theorem isReadFrom_map_param (name : String) (written : List WrittenParam) :
    IsReadFrom ⟨name, written.map WrittenParam.param⟩ written where
  firstPositional?_iff v := by
    rw [firstPositional?_map_param]
    cases written with
    | nil => simp
    | cons w rest => simpa using WrittenParam.positional?_eq_some_iff
  positionals_eq := positionals_map_param name written
  named?_eq key := by
    rw [named?, ← List.map_tail]
    exact value_find?_map_param key written.tail
  flag_iff key := by
    rw [← mem_iff_exists_key]
    simp [flag, ← List.map_tail]

end LookUp

end Directive

end DocModel
