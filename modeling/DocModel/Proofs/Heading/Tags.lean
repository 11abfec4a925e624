import DocModel.Heading
import DocModel.Proofs.Text.Trim

/-!
The tags of a heading as shapes of text. What a text reads as a tag it reads as a tag together with
everything that can follow, and a tag that is read only with what follows reaches beyond the text.
-/

namespace DocModel.Heading

open Text

/-- An opening tag of a heading. -/
inductive IsOpeningTag : List Char → Prop
  | bare {h : Char} (hname : h = 'h' ∨ h = 'H') : IsOpeningTag ['<', h, '1', '>']
  | attributed {h blank : Char} {attributes : List Char} (hname : h = 'h' ∨ h = 'H')
      (hblank : isBlank blank = true) (hattributes : '>' ∉ attributes) :
      IsOpeningTag ('<' :: h :: '1' :: blank :: (attributes ++ ['>']))

/-- A closing tag of a heading. -/
inductive IsClosingTag : List Char → Prop
  | mk {h : Char} {blanks : List Char} (hname : h = 'h' ∨ h = 'H') (hblanks : IsBlankRun blanks) :
      IsClosingTag ('<' :: '/' :: h :: '1' :: (blanks ++ ['>']))

section Tags

theorem elementName?_eq_some_iff {s rest : List Char} :
    elementName? s = some rest ↔ ∃ h, (h = 'h' ∨ h = 'H') ∧ s = h :: '1' :: rest := by
  constructor
  · intro h
    unfold elementName? at h
    split at h
    · cases h
      exact ⟨'h', .inl rfl, rfl⟩
    · cases h
      exact ⟨'H', .inr rfl, rfl⟩
    · cases h
  · rintro ⟨_, rfl | rfl, rfl⟩ <;> rfl

/-- An opening tag ends at its first closing bracket. -/
theorem IsOpeningTag.exists_eq {tag : List Char} (htag : IsOpeningTag tag) :
    ∃ front, '>' ∉ front ∧ tag = '<' :: (front ++ ['>']) := by
  cases htag with
  | @bare h hname =>
    refine ⟨[h, '1'], ?_, rfl⟩
    rcases hname with rfl | rfl <;> decide
  | @attributed h blank attributes hname hblank hattributes =>
    refine ⟨h :: '1' :: blank :: attributes, ?_, rfl⟩
    have hmark : '>' ≠ blank := by
      rintro rfl
      cases hblank
    rcases hname with rfl | rfl <;> simp [hattributes, hmark]

theorem openingTag?_eq_some_iff {s inside : List Char} :
    openingTag? s = some inside ↔ ∃ tag, IsOpeningTag tag ∧ s = tag ++ inside := by
  have hdrop {attributes : List Char} (hattributes : '>' ∉ attributes) (rest : List Char) :
      (attributes ++ '>' :: rest).dropWhile (· ≠ '>') = '>' :: rest := by
    refine dropWhile_append_of_stops (fun c hc => decide_eq_true fun h => hattributes (h ▸ hc)) ?_
    rintro _ ⟨⟩
    rfl
  constructor
  · intro h
    unfold openingTag? at h
    split at h
    · split at h
      · next hrest =>
        obtain ⟨name, hname, rfl⟩ := elementName?_eq_some_iff.mp hrest
        cases h
        exact ⟨_, .bare hname, rfl⟩
      · next blank behind _ hrest =>
        obtain ⟨name, hname, rfl⟩ := elementName?_eq_some_iff.mp hrest
        split at h
        · next hblank =>
          by_cases hmem : '>' ∈ behind
          · obtain ⟨attributes, rest, rfl, hattributes⟩ := List.eq_append_cons_of_mem hmem
            rw [hdrop hattributes] at h
            cases h
            exact ⟨_, .attributed hname hblank hattributes, by simp⟩
          · have hnone : behind.dropWhile (· ≠ '>') = [] :=
              List.dropWhile_eq_nil_iff.mpr fun c hc => decide_eq_true fun h => hmem (h ▸ hc)
            rw [hnone] at h
            cases h
        · cases h
      · cases h
    · cases h
  · rintro ⟨tag, htag, rfl⟩
    cases htag with
    | @bare h hname =>
      have helement := elementName?_eq_some_iff.mpr ⟨h, hname, (rfl : h :: '1' :: '>' :: inside = _)⟩
      simp [openingTag?, helement]
    | @attributed h blank attributes hname hblank hattributes =>
      have hmark : blank ≠ '>' := by
        rintro rfl
        cases hblank
      have helement := elementName?_eq_some_iff.mpr
        ⟨h, hname, (rfl : h :: '1' :: blank :: (attributes ++ '>' :: inside) = _)⟩
      simp only [List.cons_append, List.append_assoc, List.nil_append, openingTag?, helement]
      rw [if_pos hblank, hdrop hattributes]
      rfl

theorem isClosingTag_iff {s : List Char} :
    isClosingTag s = true ↔ ∃ tag rest, IsClosingTag tag ∧ s = tag ++ rest := by
  constructor
  · intro h
    unfold isClosingTag at h
    split at h
    · split at h
      · next behind hrest =>
        obtain ⟨name, hname, rfl⟩ := elementName?_eq_some_iff.mp hrest
        rw [beq_iff_eq, List.head?_eq_some_iff] at h
        obtain ⟨rest, hrest⟩ := h
        have hparts := List.takeWhile_append_dropWhile (p := isBlank) (l := behind)
        rw [← trimStart, hrest] at hparts
        have hblanks : IsBlankRun (behind.takeWhile isBlank) := fun c hc => List.mem_takeWhile_imp hc
        refine ⟨_, rest, .mk hname hblanks, ?_⟩
        simp [hparts]
      · cases h
    · cases h
  · rintro ⟨tag, rest, htag, rfl⟩
    cases htag with
    | @mk h blanks hname hblanks =>
      have helement := elementName?_eq_some_iff.mpr
        ⟨h, hname, (rfl : h :: '1' :: (blanks ++ '>' :: rest) = _)⟩
      have htrim := hblanks.trimStart_append ('>' :: rest)
      have hmark : trimStart ('>' :: rest) = '>' :: rest := by
        exact List.dropWhile_cons_of_neg (by decide)
      simp [isClosingTag, helement, htrim, hmark]

/-- Behind its first character a closing tag does not begin again. -/
theorem IsClosingTag.opening_not_mem_tail {tag : List Char} (htag : IsClosingTag tag) :
    '<' ∉ tag.tail := by
  cases htag with
  | @mk h blanks hname hblanks =>
    have hsolid : '<' ∉ blanks := fun hmem => by cases hblanks '<' hmem
    rcases hname with rfl | rfl <;> simp [hsolid]

/-- No letter but the name of the heading stands in a closing tag. -/
theorem IsClosingTag.letter_not_mem {tag : List Char} (htag : IsClosingTag tag) : 'A' ∉ tag := by
  cases htag with
  | @mk h blanks hname hblanks =>
    have hsolid : 'A' ∉ blanks := fun hmem => by cases hblanks 'A' hmem
    rcases hname with rfl | rfl <;> simp [hsolid]

/-- A tag at the start of a longer text ends in the text that it begins in, or reaches beyond it. -/
theorem tag_append_cases {s more tag behind : List Char} (hparts : s ++ more = tag ++ behind) :
    (∃ rest, s = tag ++ rest ∧ behind = rest ++ more) ∨
      ∃ rest, rest ≠ [] ∧ tag = s ++ rest ∧ more = rest ++ behind := by
  rcases List.append_eq_append_iff.mp hparts with ⟨rest, htag, hmore⟩ | ⟨rest, hs, hbehind⟩
  · cases rest with
    | nil => exact .inl ⟨[], by rw [htag, List.append_nil, List.append_nil], hmore.symm⟩
    | cons c rest => exact .inr ⟨c :: rest, List.cons_ne_nil c rest, htag, hmore⟩
  · exact .inl ⟨rest, hs, hbehind⟩

/-- A closing tag that begins in a text ends there, or the text is a part of the tag. -/
theorem isClosingTag_append {s more : List Char} (htag : isClosingTag (s ++ more) = true) :
    isClosingTag s = true ∨ ∃ rest, rest ≠ [] ∧ IsClosingTag (s ++ rest) ∧ rest <+: more := by
  obtain ⟨tag, behind, htag, hparts⟩ := isClosingTag_iff.mp htag
  rcases tag_append_cases hparts with ⟨rest, hs, _⟩ | ⟨rest, hne, rfl, hmore⟩
  · exact .inl (isClosingTag_iff.mpr ⟨tag, rest, htag, hs⟩)
  · exact .inr ⟨rest, hne, htag, behind, hmore.symm⟩

/-- An opening tag that begins in a text ends there, or the text is a part of the tag. -/
theorem openingTag?_append {s more inside : List Char}
    (htag : openingTag? (s ++ more) = some inside) :
    (∃ behind, openingTag? s = some behind ∧ inside = behind ++ more) ∨
      ∃ rest, rest ≠ [] ∧ IsOpeningTag (s ++ rest) := by
  obtain ⟨tag, htag, hparts⟩ := openingTag?_eq_some_iff.mp htag
  rcases tag_append_cases hparts with ⟨rest, hs, hinside⟩ | ⟨rest, hne, rfl, _⟩
  · exact .inl ⟨rest, openingTag?_eq_some_iff.mpr ⟨tag, htag, hs⟩, hinside⟩
  · exact .inr ⟨rest, hne, htag⟩

theorem openingTag?_append_of_some {s inside : List Char} (htag : openingTag? s = some inside)
    (more : List Char) : openingTag? (s ++ more) = some (inside ++ more) := by
  obtain ⟨tag, hopening, rfl⟩ := openingTag?_eq_some_iff.mp htag
  exact openingTag?_eq_some_iff.mpr ⟨tag, hopening, List.append_assoc tag inside more⟩

end Tags

section Closing

variable {s inside : List Char}

theorem opening_mem_of_untilClosing? (hclosed : untilClosing? s = some inside) : '<' ∈ s := by
  induction s generalizing inside with
  | nil => cases hclosed
  | cons c rest ih =>
    rw [untilClosing?] at hclosed
    split at hclosed
    · next htag =>
      obtain ⟨tag, behind, htag, hparts⟩ := isClosingTag_iff.mp htag
      cases htag with
      | mk => simp_all
    · obtain ⟨front, hfront, _⟩ := Option.map_eq_some_iff.mp hclosed
      exact List.mem_cons_of_mem c (ih hfront)

/-- The first closing tag stays the first one, whatever follows. -/
theorem untilClosing?_append (hclosed : untilClosing? s = some inside) (more : List Char) :
    untilClosing? (s ++ more) = some inside := by
  induction s generalizing inside with
  | nil => cases hclosed
  | cons c rest ih =>
    rw [untilClosing?] at hclosed
    rw [List.cons_append, untilClosing?]
    split at hclosed
    · next htag =>
      obtain ⟨tag, behind, htag, hparts⟩ := isClosingTag_iff.mp htag
      have hlonger : isClosingTag (c :: (rest ++ more)) = true :=
        isClosingTag_iff.mpr ⟨tag, behind ++ more, htag, by
          rw [← List.cons_append, hparts, List.append_assoc]⟩
      rw [if_pos hlonger, hclosed]
    · next hopen =>
      obtain ⟨front, hfront, rfl⟩ := Option.map_eq_some_iff.mp hclosed
      have hlonger : ¬ isClosingTag (c :: (rest ++ more)) = true := by
        intro htag
        rw [← List.cons_append] at htag
        rcases isClosingTag_append htag with htag | ⟨tail, _, htag, _⟩
        · exact hopen htag
        · have hmem := opening_mem_of_untilClosing? hfront
          exact htag.opening_not_mem_tail (List.mem_append_left tail hmem)
      rw [if_neg hlonger, ih hfront, Option.map_some]

theorem isSome_untilClosing?_append (front : List Char) (hclosed : (untilClosing? s).isSome = true) :
    (untilClosing? (front ++ s)).isSome = true := by
  induction front with
  | nil => exact hclosed
  | cons c front ih =>
    rw [List.cons_append, untilClosing?]
    split
    · rfl
    · rwa [Option.isSome_map]

/-- A letter and a closing tag. -/
def letterAndEnd : List Char := 'A' :: ['<', '/', 'h', '1', '>']

/-- What has no closing tag is inside of a heading up to a letter and a closing tag behind it. -/
theorem untilClosing?_letterAndEnd (hopen : untilClosing? s = none) :
    untilClosing? (s ++ letterAndEnd) = some (s ++ ['A']) := by
  induction s with
  | nil => decide
  | cons c rest ih =>
    rw [untilClosing?] at hopen
    split at hopen
    · cases hopen
    · next htag =>
      have hlonger : ¬ isClosingTag (c :: (rest ++ letterAndEnd)) = true := by
        intro hlonger
        rw [← List.cons_append] at hlonger
        rcases isClosingTag_append hlonger with hlonger | ⟨tail, hne, hlonger, hprefix⟩
        · exact htag hlonger
        · cases tail with
          | nil => exact hne rfl
          | cons d tail =>
            obtain ⟨rfl, _⟩ := List.cons_prefix_cons.mp hprefix
            exact hlonger.letter_not_mem (by simp)
      rw [List.cons_append, untilClosing?, if_neg hlonger, ih (Option.map_eq_none_iff.mp hopen)]
      rfl

end Closing

end DocModel.Heading
