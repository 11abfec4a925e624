import DocModel.Text.Markup

/-!
Escaping and its inverse. Markup is read entity by entity, each entity as the character that it names. Reading
undoes escaping, and of the characters with an entity only the ampersand stands in what was escaped.
-/

namespace DocModel.Text

/-- The text that markup stands for. An ampersand that begins no entity stands for itself. -/
def unescape : List Char → List Char
  | '&' :: 'a' :: 'm' :: 'p' :: ';' :: rest => '&' :: unescape rest
  | '&' :: 'l' :: 't' :: ';' :: rest => '<' :: unescape rest
  | '&' :: 'g' :: 't' :: ';' :: rest => '>' :: unescape rest
  | '&' :: 'q' :: 'u' :: 'o' :: 't' :: ';' :: rest => '"' :: unescape rest
  | '&' :: '#' :: 'x' :: '2' :: '7' :: ';' :: rest => '\'' :: unescape rest
  | '&' :: '#' :: 'x' :: '2' :: 'F' :: ';' :: rest => '/' :: unescape rest
  | c :: rest => c :: unescape rest
  | [] => []

/-- `unescape` on strings. -/
def unescapeMarkup (markup : String) : String := String.ofList (unescape markup.toList)

theorem unescape_cons_of_ne {c : Char} (hc : c ≠ '&') (rest : List Char) :
    unescape (c :: rest) = c :: unescape rest := by
  conv => lhs; unfold unescape
  split <;> simp_all

theorem unescape_escapedChar_append (c : Char) (rest : List Char) :
    unescape (escapedChar c ++ rest) = c :: unescape rest := by
  unfold escapedChar
  cases hentity : entity? c with
  | some entity =>
    unfold entity? at hentity
    split at hentity <;> cases hentity <;> rfl
  | none =>
    have hc : c ≠ '&' := by
      rintro rfl
      cases hentity
    exact unescape_cons_of_ne hc rest

theorem unescape_flatMap_escapedChar (s : List Char) : unescape (s.flatMap escapedChar) = s := by
  induction s with
  | nil => rfl
  | cons c rest ih => rw [List.flatMap_cons, unescape_escapedChar_append, ih]

theorem unescapeMarkup_escapeMarkup (s : String) : unescapeMarkup (escapeMarkup s) = s := by
  rw [unescapeMarkup, escapeMarkup, String.toList_ofList, unescape_flatMap_escapedChar,
    String.ofList_toList]

/-- Entities are written without the characters that entities stand for, the ampersand apart. -/
theorem not_mem_entity {c d : Char} {entity : String} (hc : c ∈ ['<', '>', '"', '\'', '/'])
    (hentity : entity? d = some entity) : c ∉ entity.toList := by
  simp only [List.mem_cons, List.not_mem_nil, or_false] at hc
  unfold entity? at hentity
  split at hentity <;> cases hentity <;> rcases hc with rfl | rfl | rfl | rfl | rfl <;> decide

theorem not_mem_escapeMarkup {c : Char} (hc : c ∈ ['<', '>', '"', '\'', '/']) (s : String) :
    c ∉ (escapeMarkup s).toList := by
  rw [escapeMarkup, String.toList_ofList]
  intro hmem
  obtain ⟨d, _, hd⟩ := List.mem_flatMap.mp hmem
  unfold escapedChar at hd
  cases hentity : entity? d with
  | some entity =>
    rw [hentity] at hd
    exact not_mem_entity hc hentity hd
  | none =>
    rw [hentity] at hd
    obtain rfl : c = d := List.mem_singleton.mp hd
    simp only [List.mem_cons, List.not_mem_nil, or_false] at hc
    rcases hc with rfl | rfl | rfl | rfl | rfl <;> cases hentity

end DocModel.Text
