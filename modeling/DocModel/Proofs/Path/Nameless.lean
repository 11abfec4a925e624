import DocModel.Proofs.Path.Cleaning
import DocModel.Proofs.Text.Strip

/-!
Names of which cleaning leaves nothing. They are made of dots, numbers, blanks and subscripts. The other
names all have a segment that cleaning keeps.
-/

namespace DocModel.Path

/-- A segment that names nothing: digits, or none, with blanks around them. -/
def IsIndex (segment : List Char) : Prop :=
  ∃ front digits back, Text.IsBlankRun front ∧ (∀ c ∈ digits, c.isDigit = true) ∧
    Text.IsBlankRun back ∧ segment = front ++ digits ++ back

/-- A text with subscripts put into it. -/
inductive Subscripted : List Char → List Char → Prop
  | nil : Subscripted [] []
  | kept {c : Char} {plain s : List Char} (hc : c ≠ '[') (hs : Subscripted plain s) :
      Subscripted (c :: plain) (c :: s)
  | subscript {inside plain s : List Char} (hinside : ']' ∉ inside) (hs : Subscripted plain s) :
      Subscripted plain ('[' :: (inside ++ ']' :: s))

/-- A name that consists of dots, numbers, blanks and subscripts, so that no segment of it names
anything. -/
def IsNameless (name : String) : Prop :=
  ∃ segments, (∀ segment ∈ segments, IsIndex segment) ∧
    Subscripted (Text.join '.' segments) name.toList

theorem isBlank_of_isDigit {c : Char} (hc : c.isDigit = true) : Text.isBlank c = false :=
  Text.isBlank_of_wordChar (by simp [Char.isAlphanum, hc])

theorem isIndex_iff {segment : List Char} :
    IsIndex segment ↔ isName (Text.trim segment) = false := by
  constructor
  · rintro ⟨front, digits, back, hfront, hdigits, hback, rfl⟩
    have htrim := Text.trim_of_not_blank fun c hc => isBlank_of_isDigit (hdigits c hc)
    rw [hback.trim_append_right, hfront.trim_append, htrim, isName, List.all_eq_true.mpr hdigits,
      Bool.not_true, Bool.and_false]
  · intro hname
    have hdigits : ∀ c ∈ Text.trim segment, c.isDigit = true := by
      intro c hc
      have hne : (Text.trim segment).isEmpty = false := by
        simpa using List.ne_nil_of_mem hc
      rw [isName, hne, Bool.not_false, Bool.true_and, Bool.not_eq_false'] at hname
      exact List.all_eq_true.mp hname c hc
    obtain ⟨front, back, hfront, hback, hparts⟩ := Text.exists_trim segment
    exact ⟨front, _, back, hfront, hdigits, hback, hparts⟩

/-- The characters of an index are blanks and digits. -/
theorem IsIndex.not_mem {segment : List Char} (hsegment : IsIndex segment) {c : Char}
    (hblank : Text.isBlank c = false) (hdigit : c.isDigit = false) : c ∉ segment := by
  obtain ⟨front, digits, back, hfront, hdigits, hback, rfl⟩ := hsegment
  intro hmem
  rw [List.append_assoc, List.mem_append, List.mem_append] at hmem
  rcases hmem with hmem | hmem | hmem
  · rw [hfront c hmem] at hblank
    cases hblank
  · rw [hdigits c hmem] at hdigit
    cases hdigit
  · rw [hback c hmem] at hblank
    cases hblank

theorem Subscripted.strip_eq {plain s : List Char} (hs : Subscripted plain s) :
    stripSubscripts s = plain := by
  induction hs with
  | nil => simp [stripSubscripts, Text.strip]
  | kept hc _ ih => rw [stripSubscripts, Text.strip_cons_of_ne hc, ← stripSubscripts, ih]
  | subscript hinside _ ih =>
    rw [stripSubscripts, Text.strip_bracketed hinside, ← stripSubscripts, ih]

/-- Where no opening bracket is left, whole subscripts have been removed. -/
theorem subscripted_stripSubscripts {s : List Char} (hs : '[' ∉ stripSubscripts s) :
    Subscripted (stripSubscripts s) s := by
  rw [stripSubscripts] at *
  induction s using Text.strip_induction '[' ']' with
  | nil =>
    rw [Text.strip]
    exact .nil
  | kept c rest hc ih =>
    rw [Text.strip_cons_of_ne hc] at *
    exact .kept hc (ih fun hmem => hs (List.mem_cons_of_mem c hmem))
  | unclosed rest hrest =>
    rw [Text.strip_of_unclosed hrest] at hs
    exact absurd List.mem_cons_self hs
  | bracketed inside rest hinside ih =>
    rw [Text.strip_bracketed hinside] at *
    exact .subscript hinside (ih hs)

/-- A path without names is cleaned to nothing, and no other one is. -/
theorem clean_eq_empty_iff {path : String} : clean path = "" ↔ names path = [] := by
  cases hnames : names path with
  | nil => simp [clean, hnames, Text.join]
  | cons first rest =>
    have hne := ne_nil_of_mem_names (hnames ▸ List.mem_cons_self)
    have hclean := toList_clean hnames
    refine iff_of_false (fun hempty => hne ?_) (List.cons_ne_nil first rest)
    rw [hempty] at hclean
    exact (List.append_eq_nil_iff.mp hclean.symm).1

theorem names_eq_nil_iff {path : String} : names path = [] ↔
    ∀ piece ∈ Text.split '.' (stripSubscripts path.toList), IsIndex piece := by
  simp [names, List.filter_eq_nil_iff, isIndex_iff]

/-- Cleaning leaves nothing of a name exactly if no segment of it names anything. -/
theorem clean_eq_empty_iff_isNameless {name : String} : clean name = "" ↔ IsNameless name := by
  rw [clean_eq_empty_iff, names_eq_nil_iff]
  constructor
  · intro hpieces
    have hplain : '[' ∉ stripSubscripts name.toList := by
      rw [← Text.join_split '.' (stripSubscripts name.toList)]
      intro hmem
      obtain ⟨piece, hpiece, hmem⟩ := (Text.eq_or_mem_of_mem_join hmem).resolve_left (by decide)
      exact (hpieces piece hpiece).not_mem (by decide) (by decide) hmem
    refine ⟨_, hpieces, ?_⟩
    rw [Text.join_split]
    exact subscripted_stripSubscripts hplain
  · rintro ⟨segments, hsegments, hname⟩ piece hpiece
    rw [hname.strip_eq] at hpiece
    cases segments with
    | nil =>
      obtain rfl : piece = [] := by simpa [Text.join, Text.split] using hpiece
      exact ⟨[], [], [], Text.isBlankRun_nil, List.forall_mem_nil _, Text.isBlankRun_nil, rfl⟩
    | cons first rest =>
      rw [Text.split_join (List.cons_ne_nil first rest) fun segment hsegment =>
        (hsegments segment hsegment).not_mem (by decide) (by decide)] at hpiece
      exact hsegments piece hpiece

/-- An index in front of a path does not count. -/
theorem clean_index_cons (path : String) :
    clean (String.ofList ('0' :: '.' :: path.toList)) = clean path := by
  have hstrip : stripSubscripts ('0' :: '.' :: path.toList) =
      ['0'] ++ '.' :: stripSubscripts path.toList := by
    rw [stripSubscripts, Text.strip_cons_of_ne (by decide), Text.strip_cons_of_ne (by decide)]
    rfl
  have hindexless : '.' ∉ ['0'] := by decide
  have hsplit := Text.split_append_sep hindexless (stripSubscripts path.toList)
  have hindex : isName (Text.trim ['0']) = false := by decide
  rw [clean, names, String.toList_ofList, hstrip, hsplit, List.map_cons, List.filter_cons, hindex,
    if_neg Bool.false_ne_true, clean, names]

end DocModel.Path
