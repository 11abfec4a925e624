import DocModel.Heading
import DocModel.Proofs.Text.Strip
import DocModel.Proofs.Text.Words

/-!
What a heading becomes as a title: the letters and numbers of its words, one space between neighbours, and
nothing at the two ends. A word without letters and numbers leaves its two spaces behind, so that a title
has single spaces exactly if the heading has no such word between two others. Cleaning a title again
removes the spaces that are too many.
-/

namespace DocModel.Heading

open Text

/-- The characters that words keep. -/
def isWordChar (c : Char) : Bool := isLetter c || isNumber c

theorem isKept_of_not_blank {c : Char} (hc : isBlank c = false) : isKept c = isWordChar c := by
  rw [isKept, hc, Bool.or_false, isWordChar]

theorem isKept_space : isKept ' ' = true := by
  have hblank : isBlank ' ' = true := by decide
  rw [isKept, hblank, Bool.or_true]

section Collapse

theorem collapse_append {word : List Char} (hne : word ≠ []) (hword : IsSolid word)
    (afterBlank : Bool) (rest : List Char) :
    collapse afterBlank (word ++ rest) = word ++ collapse false rest := by
  induction word generalizing afterBlank with
  | nil => exact absurd rfl hne
  | cons c word ih =>
    obtain ⟨hc, hword⟩ := List.forall_mem_cons.mp hword
    rw [List.cons_append, collapse, hc, if_neg Bool.false_ne_true]
    cases word with
    | nil => rfl
    | cons d word =>
      rw [ih (List.cons_ne_nil d word) hword]
      rfl

theorem collapse_true_eq (s : List Char) :
    ∃ back, IsBlankRun back ∧ collapse true s = join ' ' (words s) ++ back := by
  induction s using words_induction with
  | nil => exact ⟨[], isBlankRun_nil, rfl⟩
  | blank c rest hc ih =>
    rw [collapse, hc, if_pos rfl, if_pos rfl, words_cons_of_blank hc]
    exact ih
  | last word hne hword =>
    refine ⟨[], isBlankRun_nil, ?_⟩
    have hcollapse := collapse_append hne hword true []
    rw [List.append_nil, collapse] at hcollapse
    rw [hcollapse, words_eq_singleton hne hword, join]
  | word word c rest hne hword hc ih =>
    obtain ⟨back, hback, hrest⟩ := ih
    rw [collapse_append hne hword, collapse, hc, if_pos rfl, if_neg Bool.false_ne_true, hrest,
      words_append_cons hne hword hc]
    cases words rest with
    | nil => exact ⟨' ' :: back, List.forall_mem_cons.mpr ⟨by decide, hback⟩, rfl⟩
    | cons next others =>
      exact ⟨back, hback, by rw [join_cons_cons, List.append_assoc, List.cons_append]⟩

/-- Collapsing leaves the words with one space between neighbours, and blanks at the two ends. -/
theorem collapse_eq (s : List Char) :
    ∃ front back, IsBlankRun front ∧ IsBlankRun back ∧
      collapse false s = front ++ join ' ' (words s) ++ back := by
  obtain ⟨back, hback, hcollapse⟩ := collapse_true_eq s
  cases s with
  | nil => exact ⟨[], back, isBlankRun_nil, hback, hcollapse⟩
  | cons c rest =>
    cases hc : isBlank c with
    | true =>
      refine ⟨[' '], back, List.forall_mem_singleton.mpr (by decide), hback, ?_⟩
      rw [collapse, hc, if_pos rfl, if_pos rfl] at hcollapse
      rw [collapse, hc, if_pos rfl, if_neg Bool.false_ne_true, hcollapse]
      rfl
    | false =>
      refine ⟨[], back, isBlankRun_nil, hback, ?_⟩
      rw [collapse, hc, if_neg Bool.false_ne_true] at hcollapse ⊢
      exact hcollapse

theorem mem_collapse {c : Char} (hc : isBlank c = false) {s : List Char} (hmem : c ∈ s)
    (afterBlank : Bool) : c ∈ collapse afterBlank s := by
  induction s generalizing afterBlank with
  | nil => cases hmem
  | cons d rest ih =>
    rw [collapse]
    rcases List.mem_cons.mp hmem with rfl | hmem
    · rw [hc, if_neg Bool.false_ne_true]
      exact List.mem_cons_self
    · split
      · split
        · exact ih hmem true
        · exact List.mem_cons_of_mem _ (ih hmem true)
      · exact List.mem_cons_of_mem _ (ih hmem false)

/-- Cleaning keeps the letters and numbers outside of tags. -/
theorem mem_clean_of_mem_strip {c : Char} (hblank : isBlank c = false) (hkept : isKept c = true)
    {inside : List Char} (hmem : c ∈ strip '<' '>' inside) : c ∈ clean inside :=
  mem_trim hblank (List.mem_filter.mpr ⟨mem_collapse hblank hmem false, hkept⟩)

end Collapse

/-- The letters and numbers of each word in a heading, whose tags do not count. -/
def lettering (inside : List Char) : List (List Char) :=
  (words (strip '<' '>' inside)).map (List.filter isWordChar)

section Lettering

variable {inside : List Char}

theorem isSolid_of_mem_lettering {piece : List Char} (hpiece : piece ∈ lettering inside) :
    IsSolid piece := by
  obtain ⟨word, hword, rfl⟩ := List.mem_map.mp hpiece
  exact fun c hc => isSolid_of_mem_words hword c (List.mem_of_mem_filter hc)

theorem isWordChar_of_mem_lettering {piece : List Char} (hpiece : piece ∈ lettering inside) {c : Char}
    (hc : c ∈ piece) : isWordChar c = true := by
  obtain ⟨word, hword, rfl⟩ := List.mem_map.mp hpiece
  exact (List.mem_filter.mp hc).2

/-- A title is made of the letters and numbers of the words, one space between neighbours. Words without
any are dropped at the two ends only. -/
theorem clean_eq_join (inside : List Char) :
    clean inside = join ' ' (trimPieces (lettering inside)) := by
  obtain ⟨front, back, hfront, hback, hcollapse⟩ := collapse_eq (strip '<' '>' inside)
  have hpieces : (words (strip '<' '>' inside)).map (List.filter isKept) = lettering inside :=
    List.map_congr_left fun word hword =>
      List.filter_congr fun c hc => isKept_of_not_blank (isSolid_of_mem_words hword c hc)
  have hfront' : IsBlankRun (front.filter isKept) := fun c hc => hfront c (List.mem_of_mem_filter hc)
  have hback' : IsBlankRun (back.filter isKept) := fun c hc => hback c (List.mem_of_mem_filter hc)
  rw [clean, hcollapse, List.filter_append, List.filter_append, hback'.trim_append_right,
    hfront'.trim_append, filter_join isKept_space, hpieces,
    trim_join fun piece => isSolid_of_mem_lettering]

theorem lettering_join {pieces : List (List Char)} (hpieces : ∀ piece ∈ pieces, IsSolid piece)
    (hletters : ∀ piece ∈ pieces, ∀ c ∈ piece, isWordChar c = true) :
    lettering (join ' ' pieces) = pieces.filter (· ≠ []) := by
  have hopening : '<' ∉ join ' ' pieces := by
    intro hmem
    obtain ⟨piece, hpiece, hmem⟩ := (eq_or_mem_of_mem_join hmem).resolve_left (by decide)
    have hletter := hletters piece hpiece '<' hmem
    have hmark : isWordChar '<' = false := by decide +kernel
    rw [hmark] at hletter
    cases hletter
  have hstrip : strip '<' '>' (join ' ' pieces ++ []) = join ' ' pieces ++ strip '<' '>' [] :=
    strip_append hopening []
  have hnone : strip '<' '>' [] = [] := by rw [strip]
  rw [hnone, List.append_nil] at hstrip
  rw [lettering, hstrip, words_join hpieces]
  refine (List.map_congr_left fun piece hpiece => ?_).trans (List.map_id _)
  exact List.filter_eq_self.mpr (hletters piece (List.mem_of_mem_filter hpiece))

/-- Cleaning once more drops every word without letters and numbers. -/
theorem clean_clean (inside : List Char) :
    clean (clean inside) = join ' ' ((trimPieces (lettering inside)).filter (· ≠ [])) := by
  have hmem : ∀ piece ∈ trimPieces (lettering inside), piece ∈ lettering inside := by
    intro piece hpiece
    obtain ⟨front, back, hparts⟩ := exists_trimPieces (lettering inside)
    rw [hparts]
    simp [hpiece]
  rw [clean_eq_join (clean inside), clean_eq_join inside,
    lettering_join (fun piece hpiece => isSolid_of_mem_lettering (hmem piece hpiece))
      fun piece hpiece _ => isWordChar_of_mem_lettering (hmem piece hpiece),
    trimPieces_eq_self fun piece hpiece => of_decide_eq_true (List.mem_filter.mp hpiece).2]

end Lettering

/-- Whether a word without letters and numbers stands between two others in a heading. -/
def HasLoneMark (inside : List Char) : Prop :=
  ∃ front mark back, words (strip '<' '>' inside) = front ++ mark :: back ∧
    (∀ c ∈ mark, isWordChar c = false) ∧ (∃ word ∈ front, ∃ c ∈ word, isWordChar c = true) ∧
      ∃ word ∈ back, ∃ c ∈ word, isWordChar c = true

section Title

variable {inside : List Char}

theorem exists_ne_nil_map_filter_iff {pieces : List (List Char)} :
    (∃ piece ∈ pieces.map (List.filter isWordChar), piece ≠ []) ↔
      ∃ word ∈ pieces, ∃ c ∈ word, isWordChar c = true := by
  simp [List.filter_eq_nil_iff]

theorem nil_mem_trimPieces_lettering_iff :
    [] ∈ trimPieces (lettering inside) ↔ HasLoneMark inside := by
  rw [nil_mem_trimPieces_iff]
  constructor
  · rintro ⟨front, back, hparts, hfront, hback⟩
    obtain ⟨before, rest, hwords, rfl, hrest⟩ := List.map_eq_append_iff.mp hparts
    obtain ⟨mark, behind, rfl, hmark, rfl⟩ := List.map_eq_cons_iff.mp hrest
    refine ⟨before, mark, behind, hwords, fun c hc => ?_, exists_ne_nil_map_filter_iff.mp hfront,
      exists_ne_nil_map_filter_iff.mp hback⟩
    simpa using List.filter_eq_nil_iff.mp hmark c hc
  · rintro ⟨front, mark, back, hwords, hmark, hfront, hback⟩
    refine ⟨_, _, ?_, exists_ne_nil_map_filter_iff.mpr hfront, exists_ne_nil_map_filter_iff.mpr hback⟩
    have hnone : mark.filter isWordChar = [] :=
      List.filter_eq_nil_iff.mpr fun c hc => by simp [hmark c hc]
    rw [lettering, hwords, List.map_append, List.map_cons, hnone]

theorem mem_lettering_of_mem_trimPieces {piece : List Char}
    (hpiece : piece ∈ trimPieces (lettering inside)) : piece ∈ lettering inside := by
  obtain ⟨front, back, hparts⟩ := exists_trimPieces (lettering inside)
  rw [hparts]
  simp [hpiece]

theorem isSingleSpaced_clean_iff : IsSingleSpaced (clean inside) ↔ ¬ HasLoneMark inside := by
  rw [clean_eq_join, isSingleSpaced_join_iff (isTrimmed_trimPieces _) fun piece hpiece =>
    isSolid_of_mem_lettering (mem_lettering_of_mem_trimPieces hpiece),
    nil_mem_trimPieces_lettering_iff]

theorem isSingleSpaced_clean_clean : IsSingleSpaced (clean (clean inside)) := by
  have hfull : ∀ piece ∈ (trimPieces (lettering inside)).filter (· ≠ []), piece ≠ [] :=
    fun piece hpiece => of_decide_eq_true (List.mem_filter.mp hpiece).2
  have htrimmed := isTrimmed_trimPieces ((trimPieces (lettering inside)).filter (· ≠ []))
  rw [trimPieces_eq_self hfull] at htrimmed
  rw [clean_clean, isSingleSpaced_join_iff htrimmed fun piece hpiece =>
    isSolid_of_mem_lettering (mem_lettering_of_mem_trimPieces (List.mem_of_mem_filter hpiece))]
  exact fun hnil => hfull [] hnil rfl

/-- Cleaning changes a title that is clean already only where it has a space too many. -/
theorem clean_clean_eq_self_iff :
    clean (clean inside) = clean inside ↔ IsSingleSpaced (clean inside) := by
  constructor
  · intro hclean
    rw [← hclean]
    exact isSingleSpaced_clean_clean
  · rw [isSingleSpaced_clean_iff, ← nil_mem_trimPieces_lettering_iff, clean_clean, clean_eq_join]
    intro hnil
    have hfull : ∀ piece ∈ trimPieces (lettering inside), decide (piece ≠ []) = true := by
      intro piece hpiece
      exact decide_eq_true fun hempty => hnil (hempty ▸ hpiece)
    rw [List.filter_eq_self.mpr hfull]

theorem mem_clean {c : Char} (hc : c ∈ clean inside) : isWordChar c = true ∨ c = ' ' := by
  rw [clean_eq_join] at hc
  rcases eq_or_mem_of_mem_join hc with hspace | ⟨piece, hpiece, hc⟩
  · exact .inr hspace
  · exact .inl (isWordChar_of_mem_lettering (mem_lettering_of_mem_trimPieces hpiece) hc)

end Title

theorem title?_eq_some_iff {texts : List String} {title : String} : title? texts = some title ↔
    ∃ inside, texts.findSome? (fun text => first? text.toList) = some inside ∧ clean inside ≠ [] ∧
      title.toList = clean inside := by
  rw [title?]
  cases texts.findSome? fun text => first? text.toList with
  | none => simp
  | some inside =>
    cases hclean : clean inside with
    | nil => simp [hclean]
    | cons c rest =>
      simp only [hclean, Option.some.injEq]
      constructor
      · rintro rfl
        exact ⟨inside, rfl, by simp [hclean], by rw [String.toList_ofList, hclean]⟩
      · rintro ⟨_, rfl, _, htitle⟩
        rw [← hclean, ← htitle, String.ofList_toList]

/-- A title is not empty, has letters, numbers and spaces only, and neither begins nor ends with a space.
It is made of the words of the first heading. Two spaces stand in a row in it, and cleaning it again changes
it, exactly if a word without letters and numbers stands between two others in the heading. After that
second cleaning all spaces are single, and cleaning changes nothing any more. -/
theorem title_form {texts : List String} {title : String} (htitle : title? texts = some title) :
    title ≠ "" ∧ (∀ c ∈ title.toList, isLetter c = true ∨ isNumber c = true ∨ c = ' ') ∧
      title.toList.head? ≠ some ' ' ∧ title.toList.getLast? ≠ some ' ' ∧
      ∃ inside, texts.findSome? (fun text => first? text.toList) = some inside ∧
        title.toList = join ' ' (trimPieces (lettering inside)) ∧
        (IsSingleSpaced title.toList ↔ ¬ HasLoneMark inside) ∧
        (clean title.toList = title.toList ↔ ¬ HasLoneMark inside) ∧
        IsSingleSpaced (clean title.toList) ∧
        clean (clean title.toList) = clean title.toList := by
  obtain ⟨inside, hinside, hne, hclean⟩ := title?_eq_some_iff.mp htitle
  have hblank : isBlank ' ' = true := by decide
  have hnonempty : title ≠ "" := by
    rintro rfl
    exact hne hclean.symm
  refine ⟨hnonempty, fun c hc => ?_, fun hhead => ?_, fun hlast => ?_, inside, hinside, ?_, ?_, ?_, ?_,
    ?_⟩
  all_goals rw [hclean] at *
  · rcases mem_clean hc with hword | hspace
    · rw [isWordChar, Bool.or_eq_true] at hword
      exact or_assoc.mp (.inl hword)
    · exact .inr (.inr hspace)
  · cases (stops_trim _ ' ' hhead).symm.trans hblank
  · rw [← List.head?_reverse] at hlast
    cases (stops_reverse_trim _ ' ' hlast).symm.trans hblank
  · exact clean_eq_join inside
  · exact isSingleSpaced_clean_iff
  · exact clean_clean_eq_self_iff.trans isSingleSpaced_clean_iff
  · exact isSingleSpaced_clean_clean
  · exact clean_clean_eq_self_iff.mpr isSingleSpaced_clean_clean

/-- Fees and taxes with a sign between them. -/
def feesHeading : String := "<h1 id=\"top\">\n  Fees & <b>taxes</b> (2024)\n</h1>"

theorem title_form_fees :
    title? ["<p>Overview</p>", feesHeading] = some "Fees  taxes 2024" ∧
      ¬ IsSingleSpaced "Fees  taxes 2024".toList ∧
      ∃ inside, first? feesHeading.toList = some inside ∧ HasLoneMark inside := by
  have htitle : title? ["<p>Overview</p>", feesHeading] = some "Fees  taxes 2024" := by decide +kernel
  have hdoubled : ¬ IsSingleSpaced "Fees  taxes 2024".toList := fun hsingle =>
    hsingle "Fees".toList "taxes 2024".toList (by decide)
  obtain ⟨_, _, _, _, inside, hinside, _, hsingle, _⟩ := title_form htitle
  refine ⟨htitle, hdoubled, inside, ?_, not_not.mp (mt hsingle.mpr hdoubled)⟩
  rw [← hinside]
  decide +kernel

/-- A word without letters and numbers leaves two spaces in a row, of which cleaning again leaves one. -/
theorem title_of_lone_mark :
    title? ["<h1>Report - 2024</h1>"] = some "Report  2024" ∧
      clean "Report  2024".toList = "Report 2024".toList := by
  decide +kernel

end DocModel.Heading
