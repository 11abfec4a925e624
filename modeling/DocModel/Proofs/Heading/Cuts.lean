import DocModel.Proofs.Heading.Tags
import DocModel.Proofs.Heading.Title
import DocModel.Template.Reading
import DocModel.Template.Walk

/-!
Headings in a text that comes in parts. A heading is found in one part by itself. So the parts give the
title of the whole text as long as no part leaves a heading open in front of the first one that is found,
and a heading that is left open can always go on such that the titles differ.
-/

namespace DocModel.Heading

open Text

/-- A text that begins a heading and does not end it: a part of an opening tag, or an opening tag without
a closing one behind it. -/
inductive IsOpen : List Char → Prop
  | tag {s rest : List Char} (hne : s ≠ []) (hrest : rest ≠ []) (htag : IsOpeningTag (s ++ rest)) :
      IsOpen s
  | inside {s inside : List Char} (htag : openingTag? s = some inside)
      (hopen : untilClosing? inside = none) : IsOpen s

/-- Some end of a text begins a heading that is not ended. -/
def LeavesOpen (s : List Char) : Prop := ∃ front back, s = front ++ back ∧ IsOpen back

section Open

variable {s : List Char}

theorem IsOpen.ne_nil (hs : IsOpen s) : s ≠ [] := by
  cases hs with
  | tag hne => exact hne
  | inside htag =>
    rintro rfl
    cases htag

theorem LeavesOpen.cons (c : Char) (hs : LeavesOpen s) : LeavesOpen (c :: s) := by
  obtain ⟨front, back, rfl, hback⟩ := hs
  exact ⟨c :: front, back, rfl, hback⟩

theorem LeavesOpen.of_cons {c : Char} (hs : LeavesOpen (c :: s)) (hopen : ¬ IsOpen (c :: s)) :
    LeavesOpen s := by
  obtain ⟨front, back, hparts, hback⟩ := hs
  cases front with
  | nil => exact absurd (hparts ▸ hback) hopen
  | cons d front => exact ⟨front, back, (List.cons_eq_cons.mp hparts).2, hback⟩

/-- A part of an opening tag has no closing bracket. -/
theorem closing_not_mem_of_tag {rest : List Char} (hrest : rest ≠ [])
    (htag : IsOpeningTag (s ++ rest)) : '>' ∉ s := by
  obtain ⟨front, hfront, htext⟩ := htag.exists_eq
  obtain ⟨before, last, rfl⟩ := (List.eq_nil_or_concat rest).resolve_left hrest
  rw [List.concat_eq_append, ← List.append_assoc, ← List.cons_append] at htext
  have hwhole : s ++ before = '<' :: front := List.append_inj_left' htext rfl
  intro hmem
  have hfull : '>' ∈ '<' :: front := hwhole ▸ List.mem_append_left before hmem
  exact hfront (List.mem_of_ne_of_mem (by decide) hfull)

/-- A part of an opening tag can go on to the end of a tag without beginning another one. -/
theorem exists_rest_of_tag {rest : List Char} (hne : s ≠ []) (hrest : rest ≠ [])
    (htag : IsOpeningTag (s ++ rest)) : ∃ more, '<' ∉ more ∧ IsOpeningTag (s ++ more) := by
  have hmark := closing_not_mem_of_tag hrest htag
  generalize htext : s ++ rest = tag at htag
  cases htag with
  | @bare h hname =>
    obtain ⟨rfl, _⟩ | ⟨front, rfl, hbehind⟩ := List.append_eq_cons_iff.mp htext
    · exact absurd rfl hne
    · refine ⟨rest, fun hmem => ?_, htext ▸ .bare hname⟩
      have hname' : '<' ∈ [h, '1', '>'] := hbehind ▸ List.mem_append_right front hmem
      rcases hname with rfl | rfl <;> simp at hname'
  | @attributed h blank attributes hname hblank _ =>
    -- Up to the blank the part goes on as a tag without attributes.
    match s, hne with
    | [a], _ =>
      simp only [List.cons_append, List.cons.injEq] at htext
      obtain ⟨rfl, _⟩ := htext
      refine ⟨[h, '1', '>'], ?_, .bare hname⟩
      rcases hname with rfl | rfl <;> decide
    | [a, b], _ =>
      simp only [List.cons_append, List.cons.injEq] at htext
      obtain ⟨rfl, rfl, _⟩ := htext
      exact ⟨['1', '>'], by decide, .bare hname⟩
    | [a, b, c], _ =>
      simp only [List.cons_append, List.cons.injEq] at htext
      obtain ⟨rfl, rfl, rfl, _⟩ := htext
      exact ⟨['>'], by decide, .bare hname⟩
    | a :: b :: c :: d :: front, _ =>
      simp only [List.cons_append, List.cons.injEq] at htext
      obtain ⟨rfl, rfl, rfl, rfl, _⟩ := htext
      have hfront : '>' ∉ front := fun hmem => hmark (by simp [hmem])
      exact ⟨['>'], by decide, .attributed hname hblank hfront⟩

end Open

section First

variable {s inside : List Char}

theorem first?_cons (c : Char) (rest : List Char) :
    first? (c :: rest) = ((openingTag? (c :: rest)).bind untilClosing? <|> first? rest) := by
  rw [first?]

theorem first?_cons_eq_none_iff {c : Char} {rest : List Char} : first? (c :: rest) = none ↔
    (openingTag? (c :: rest)).bind untilClosing? = none ∧ first? rest = none := by
  rw [first?_cons]
  cases (openingTag? (c :: rest)).bind untilClosing? <;> simp

theorem exists_tag_of_first? (hfirst : first? s = some inside) :
    ∃ front tag behind, s = front ++ tag ++ behind ∧ IsOpeningTag tag ∧
      untilClosing? behind = some inside := by
  induction s with
  | nil => cases hfirst
  | cons c rest ih =>
    rw [first?_cons] at hfirst
    cases htag : (openingTag? (c :: rest)).bind untilClosing? with
    | none =>
      rw [htag] at hfirst
      obtain ⟨front, tag, behind, rfl, htag, hbehind⟩ := ih hfirst
      exact ⟨c :: front, tag, behind, rfl, htag, hbehind⟩
    | some found =>
      rw [htag] at hfirst
      cases hfirst
      obtain ⟨behind, hopening, hbehind⟩ := Option.bind_eq_some_iff.mp htag
      obtain ⟨tag, htag, hparts⟩ := openingTag?_eq_some_iff.mp hopening
      exact ⟨[], tag, behind, hparts, htag, hbehind⟩

/-- Where two texts are the same, what stands behind a mark in the one stands behind the first mark
of the other. -/
theorem suffix_of_append_cons_eq {mark : Char} {front back front' back' : List Char}
    (hfront : mark ∉ front) (hparts : front ++ mark :: back = front' ++ mark :: back') :
    back' <:+ back := by
  rcases List.append_eq_append_iff.mp hparts with ⟨middle, _, hback⟩ | ⟨middle, hmiddle, hback⟩
  · cases middle with
    | nil =>
      obtain ⟨_, rfl⟩ := List.cons_eq_cons.mp hback
      exact List.suffix_rfl
    | cons c middle =>
      obtain ⟨_, rfl⟩ := List.cons_eq_cons.mp hback
      exact ⟨middle ++ [mark], by simp⟩
  · cases middle with
    | nil =>
      obtain ⟨_, rfl⟩ := List.cons_eq_cons.mp hback
      exact List.suffix_rfl
    | cons c middle =>
      obtain ⟨rfl, _⟩ := List.cons_eq_cons.mp hback
      exact absurd (hmiddle ▸ List.mem_append_right _ List.mem_cons_self) hfront

/-- A heading behind an opening tag closes that one too. -/
theorem isSome_untilClosing?_of_first? {c : Char} {rest behind : List Char}
    (htag : openingTag? (c :: rest) = some behind) (hfirst : first? rest = some inside) :
    (untilClosing? behind).isSome = true := by
  obtain ⟨tag, hopening, hparts⟩ := openingTag?_eq_some_iff.mp htag
  obtain ⟨before, later, inner, rfl, hlater, hclosed⟩ := exists_tag_of_first? hfirst
  obtain ⟨name, hname, rfl⟩ := hopening.exists_eq
  obtain ⟨name', _, rfl⟩ := hlater.exists_eq
  have hmark : '>' ∉ '<' :: name := by simp [hname]
  have hsame : ('<' :: name) ++ '>' :: behind = (c :: (before ++ '<' :: name')) ++ '>' :: inner := by
    simpa using hparts.symm
  obtain ⟨middle, rfl⟩ := suffix_of_append_cons_eq hmark hsame
  exact isSome_untilClosing?_append middle (by rw [hclosed]; rfl)

/-- The first heading of a text stays the first one, whatever follows. -/
theorem first?_append (hfirst : first? s = some inside) (more : List Char) :
    first? (s ++ more) = some inside := by
  induction s generalizing inside with
  | nil => cases hfirst
  | cons c rest ih =>
    rw [List.cons_append, first?_cons, ← List.cons_append]
    rw [first?_cons] at hfirst
    cases hhere : (openingTag? (c :: rest)).bind untilClosing? with
    | some found =>
      rw [hhere] at hfirst
      cases hfirst
      obtain ⟨behind, htag, hclosed⟩ := Option.bind_eq_some_iff.mp hhere
      rw [openingTag?_append_of_some htag, Option.bind_some, untilClosing?_append hclosed]
      rfl
    | none =>
      rw [hhere] at hfirst
      have hlonger : (openingTag? (c :: rest ++ more)).bind untilClosing? = none := by
        cases htag : openingTag? (c :: rest ++ more) with
        | none => rfl
        | some behind =>
          rcases openingTag?_append htag with ⟨short, hshort, rfl⟩ | ⟨tail, hne, htail⟩
          · have hclosed := isSome_untilClosing?_of_first? hshort hfirst
            rw [hshort, Option.bind_some] at hhere
            rw [hhere] at hclosed
            cases hclosed
          · obtain ⟨before, later, inner, rfl, hlater, _⟩ := exists_tag_of_first? hfirst
            obtain ⟨name, _, rfl⟩ := hlater.exists_eq
            exact absurd (by simp) (closing_not_mem_of_tag hne htail)
      rw [hlonger, ih hfirst]
      rfl

theorem first?_of_openingTag? (htag : openingTag? s = some inside) {found : List Char}
    (hclosed : untilClosing? inside = some found) : first? s = some found := by
  cases s with
  | nil => cases htag
  | cons c rest =>
    rw [first?_cons, htag, Option.bind_some, hclosed]
    rfl

/-- A text that does not begin a heading begins none together with what follows. -/
theorem bind_append_eq_none (hne : s ≠ []) (hhere : (openingTag? s).bind untilClosing? = none)
    (hclosed : ¬ IsOpen s) (more : List Char) :
    (openingTag? (s ++ more)).bind untilClosing? = none := by
  cases htag : openingTag? (s ++ more) with
  | none => rfl
  | some behind =>
    rcases openingTag?_append htag with ⟨short, hshort, rfl⟩ | ⟨tail, htail, hlonger⟩
    · rw [hshort, Option.bind_some] at hhere
      exact absurd (.inside hshort hhere) hclosed
    · exact absurd (.tag hne htail hlonger) hclosed

theorem first?_cons_append_of_not_isOpen {c : Char} {rest : List Char}
    (hhere : (openingTag? (c :: rest)).bind untilClosing? = none) (hclosed : ¬ IsOpen (c :: rest))
    (more : List Char) : first? (c :: rest ++ more) = first? (rest ++ more) := by
  have hlonger := bind_append_eq_none (List.cons_ne_nil c rest) hhere hclosed more
  rw [List.cons_append, first?_cons, ← List.cons_append, hlonger]
  rfl

/-- Behind a text that has no heading and leaves none open, headings are found as if it were not
there. -/
theorem first?_append_of_not_leavesOpen (hfirst : first? s = none) (hopen : ¬ LeavesOpen s)
    (more : List Char) : first? (s ++ more) = first? more := by
  induction s with
  | nil => rfl
  | cons c rest ih =>
    obtain ⟨hhere, hrest⟩ := first?_cons_eq_none_iff.mp hfirst
    rw [first?_cons_append_of_not_isOpen hhere fun h => hopen ⟨[], _, rfl, h⟩,
      ih hrest fun h => hopen (h.cons c)]

theorem not_leavesOpen_of_not_mem (hs : '<' ∉ s) : ¬ LeavesOpen s := by
  rintro ⟨front, back, rfl, hback⟩
  have hmem : '<' ∈ back := by
    cases hback with
    | tag hne _ htag =>
      obtain ⟨name, _, htext⟩ := htag.exists_eq
      cases back with
      | nil => exact absurd rfl hne
      | cons c rest =>
        obtain ⟨rfl, _⟩ := List.cons_eq_cons.mp htext
        exact List.mem_cons_self
    | inside hopening =>
      obtain ⟨tag, htag, rfl⟩ := openingTag?_eq_some_iff.mp hopening
      obtain ⟨name, _, rfl⟩ := htag.exists_eq
      exact List.mem_cons_self
  exact hs (List.mem_append_right front hmem)

theorem first?_eq_none_of_not_mem (hs : '<' ∉ s) : first? s = none := by
  cases hfirst : first? s with
  | none => rfl
  | some inside =>
    obtain ⟨front, tag, behind, rfl, htag, _⟩ := exists_tag_of_first? hfirst
    obtain ⟨name, _, rfl⟩ := htag.exists_eq
    exact absurd (by simp) hs

/-- A letter at the end of a heading stays in the title. -/
theorem clean_letter_ne_nil (s : List Char) : clean (s ++ ['A']) ≠ [] := by
  have hkept : isKept 'A' = true := by decide +kernel
  exact List.ne_nil_of_mem (mem_clean_of_mem_strip (by decide) hkept (mem_strip_last (by decide) s))

/-- A heading that is left open can be closed by a text that has no heading of its own. -/
theorem exists_first?_of_leavesOpen (hfirst : first? s = none) (hopen : LeavesOpen s) :
    ∃ more, first? more = none ∧
      ∃ inside, first? (s ++ more) = some inside ∧ clean inside ≠ [] := by
  induction s with
  | nil =>
    obtain ⟨front, back, hparts, hback⟩ := hopen
    exact absurd (List.append_eq_nil_iff.mp hparts.symm).2 hback.ne_nil
  | cons c rest ih =>
    obtain ⟨hhere, hrest⟩ := first?_cons_eq_none_iff.mp hfirst
    by_cases hstart : IsOpen (c :: rest)
    · cases hstart with
      | tag hne hrest htag =>
        obtain ⟨more, hmore, htag⟩ := exists_rest_of_tag hne hrest htag
        have hnone : first? (more ++ letterAndEnd) = none := by
          rw [first?_append_of_not_leavesOpen (first?_eq_none_of_not_mem hmore)
            (not_leavesOpen_of_not_mem hmore)]
          decide
        have hopening := openingTag?_eq_some_iff.mpr
          ⟨_, htag, (List.append_assoc (c :: rest) more letterAndEnd).symm⟩
        exact ⟨more ++ letterAndEnd, hnone, _,
          first?_of_openingTag? hopening (untilClosing?_letterAndEnd (s := []) rfl),
          clean_letter_ne_nil []⟩
      | inside htag hinside =>
        have hclosed := untilClosing?_letterAndEnd hinside
        exact ⟨letterAndEnd, by decide, _,
          first?_of_openingTag? (openingTag?_append_of_some htag letterAndEnd) hclosed,
          clean_letter_ne_nil _⟩
    · obtain ⟨more, hmore, inside, hinside, hclean⟩ := ih hrest (hopen.of_cons hstart)
      refine ⟨more, hmore, inside, ?_, hclean⟩
      rw [first?_cons_append_of_not_isOpen hhere hstart, hinside]

end First

/-- Texts whose headings can be found one text at a time: no text in front of the first one that has a
heading leaves a heading open. -/
inductive IsUncut : List String → Prop
  | nil : IsUncut []
  | last (text : String) : IsUncut [text]
  | found {text : String} {rest : List String} (hfound : (first? text.toList).isSome = true) :
      IsUncut (text :: rest)
  | closed {text : String} {rest : List String} (hclosed : ¬ LeavesOpen text.toList)
      (hrest : IsUncut rest) : IsUncut (text :: rest)

theorem findSome?_singleton (text : String) :
    [text].findSome? (fun text => first? text.toList) = first? text.toList := by
  rw [List.findSome?_cons]
  cases first? text.toList <;> rfl

theorem IsUncut.findSome?_eq {texts : List String} (htexts : IsUncut texts) :
    texts.findSome? (fun text => first? text.toList) = first? (String.join texts).toList := by
  induction htexts with
  | nil => rfl
  | last text =>
    have hjoin : String.join [text] = text := by simp [String.join]
    rw [hjoin, findSome?_singleton]
  | @found text rest hfound =>
    obtain ⟨inside, hinside⟩ := Option.isSome_iff_exists.mp hfound
    rw [String.join_cons, String.toList_append, first?_append hinside, List.findSome?_cons, hinside]
  | @closed text rest hclosed _ ih =>
    rw [String.join_cons, String.toList_append, List.findSome?_cons]
    cases hfirst : first? text.toList with
    | some inside => rw [first?_append hfirst]
    | none => rw [first?_append_of_not_leavesOpen hfirst hclosed, ih]

theorem title?_eq_of_findSome?_eq {texts others : List String}
    (hfound : texts.findSome? (fun text => first? text.toList) =
      others.findSome? fun text => first? text.toList) : title? texts = title? others := by
  rw [title?, hfound, title?]

/-- Texts without headings of their own make no difference to the title that a text behind them has. -/
theorem title?_append_singleton {texts : List String}
    (htexts : ∀ text ∈ texts, first? text.toList = none) (next : String) :
    title? (texts ++ [next]) = title? [next] := by
  have hnone : texts.findSome? (fun text => first? text.toList) = none :=
    List.findSome?_eq_none_iff.mpr htexts
  refine title?_eq_of_findSome?_eq ?_
  rw [List.findSome?_append, hnone, Option.none_or]

theorem title?_singleton_of_none {text : String} (hnone : first? text.toList = none) :
    title? [text] = none := by
  rw [title?, findSome?_singleton, hnone]

/-- The first heading of a text is the one of the whole text, whatever follows. -/
theorem first?_eq_none_of_title?_eq {text : String}
    (hall : ∀ next, title? [next] = title? [text ++ next]) : first? text.toList = none := by
  cases hfirst : first? text.toList with
  | none => rfl
  | some inside =>
    have hkept (next : String) : first? (text ++ next).toList = some inside := by
      rw [String.toList_append, first?_append hfirst]
    have hsame : title? [text ++ ""] = title? [text ++ "<h1>A</h1>"] := by
      refine title?_eq_of_findSome?_eq ?_
      rw [findSome?_singleton, findSome?_singleton, hkept, hkept]
    have htitles : title? [""] ≠ title? ["<h1>A</h1>"] := by decide +kernel
    exact absurd ((hall "").trans (hsame.trans (hall "<h1>A</h1>").symm)) htitles

theorem not_leavesOpen_of_title?_eq {text : String} (hnone : first? text.toList = none)
    (hall : ∀ next, title? [next] = title? [text ++ next]) : ¬ LeavesOpen text.toList := by
  intro hopen
  obtain ⟨more, hmore, inside, hinside, hclean⟩ := exists_first?_of_leavesOpen hnone hopen
  have hnext : title? [String.ofList more] = none :=
    title?_singleton_of_none (by rw [String.toList_ofList, hmore])
  have hwhole : title? [text ++ String.ofList more] = some (String.ofList (clean inside)) := by
    refine title?_eq_some_iff.mpr ⟨inside, ?_, hclean, String.toList_ofList⟩
    rw [findSome?_singleton, String.toList_append, String.toList_ofList, hinside]
  rw [← hall, hnext] at hwhole
  cases hwhole

/-- A text in front makes no difference to any title exactly if it has no heading and leaves none open. -/
theorem title?_eq_append_iff (text : String) : (∀ next, title? [next] = title? [text ++ next]) ↔
    first? text.toList = none ∧ ¬ LeavesOpen text.toList := by
  constructor
  · intro hall
    have hnone := first?_eq_none_of_title?_eq hall
    exact ⟨hnone, not_leavesOpen_of_title?_eq hnone hall⟩
  · rintro ⟨hnone, hclosed⟩ next
    refine title?_eq_of_findSome?_eq ?_
    rw [findSome?_singleton, findSome?_singleton, String.toList_append,
      first?_append_of_not_leavesOpen hnone hclosed]

/-- The parts of a text give the title of the whole text if no part in front of the first heading leaves
a heading open. Parts without headings of their own give the title of the whole text, whatever part
follows, exactly if together they have no heading and leave none open. -/
theorem title?_eq_title?_join (texts : List String) :
    (IsUncut texts → title? texts = title? [String.join texts]) ∧
      ((∀ text ∈ texts, first? text.toList = none) →
        ((∀ next, title? (texts ++ [next]) = title? [String.join (texts ++ [next])]) ↔
          first? (String.join texts).toList = none ∧ ¬ LeavesOpen (String.join texts).toList)) := by
  refine ⟨fun htexts => ?_, fun htexts => ?_⟩
  · refine title?_eq_of_findSome?_eq ?_
    rw [findSome?_singleton, htexts.findSome?_eq]
  · have hjoin (next : String) : String.join (texts ++ [next]) = String.join texts ++ next := by
      rw [String.join_append]
      simp [String.join]
    simp only [title?_append_singleton htexts, hjoin]
    exact title?_eq_append_iff (String.join texts)

/-- Parts of which the second has the heading, and a part that leaves a heading open. -/
theorem title?_eq_title?_join_report :
    title? ["Annual ", "<h1>Report</h1>", "<h1>Annex"] =
        title? [String.join ["Annual ", "<h1>Report</h1>", "<h1>Annex"]] ∧
      ∃ next, title? ["<h1>Report ", next] ≠ title? [String.join ["<h1>Report ", next]] := by
  have huncut : IsUncut ["Annual ", "<h1>Report</h1>", "<h1>Annex"] :=
    .closed (not_leavesOpen_of_not_mem (by decide)) (.found (by decide))
  have hnone : ∀ text ∈ ["<h1>Report "], first? text.toList = none :=
    List.forall_mem_singleton.mpr (by decide)
  have htag : openingTag? (String.join ["<h1>Report "]).toList = some "Report ".toList := by decide
  have hopen : LeavesOpen (String.join ["<h1>Report "]).toList :=
    ⟨[], _, rfl, .inside htag (by decide)⟩
  refine ⟨(title?_eq_title?_join _).1 huncut, ?_⟩
  by_contra hall
  rw [not_exists] at hall
  exact (((title?_eq_title?_join _).2 hnone).mp fun next => not_not.mp (hall next)).2 hopen

/-- An expression cuts the first heading of this template. -/
def cutSource : String := "<h1>Report \x7b\x7b year \x7d\x7d</h1><h1>Annex</h1>"

def cutNodes : List Template.Node :=
  [.text "<h1>Report ", .output .none (.mk (.name "year") [] false), .text "</h1><h1>Annex</h1>"]

theorem parse_cutSource : Template.parse cutSource = .ok cutNodes := by cbv

/-- The cut heading is passed over, and a later one gives the title. -/
theorem title?_cut :
    Template.parse cutSource = .ok cutNodes ∧
      Template.texts (Template.analysed cutNodes) = ["<h1>Report ", "</h1><h1>Annex</h1>"] ∧
      title? ["<h1>Report ", "</h1><h1>Annex</h1>"] = some "Annex" ∧
      title? [String.join ["<h1>Report ", "</h1><h1>Annex</h1>"]] = some "Report" :=
  ⟨parse_cutSource, by decide +kernel, by decide +kernel, by decide +kernel⟩

end DocModel.Heading
