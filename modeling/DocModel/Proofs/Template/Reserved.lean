import DocModel.Proofs.Path.Subscripts
import DocModel.Proofs.Template.Occurrences
import DocModel.Template.Reading

/-!
Which of the data paths of a template refer to the engine. A name is tested as it is written, and cleaned
behind the test. So the reserved paths are those of disguised names: a subscript hides the `this` that a
name begins with, and numbers and subscripts hide a keyword, until the name is clean.
-/

namespace DocModel

namespace Path

/-- A name that is not reserved as it is written, and whose clean path refers to the engine. -/
def IsDisguised (name : String) : Prop :=
  isReserved name = false ∧ namesEngine (names name) = true

section Written

variable {first : Segment} {rest : List Segment}

theorem head?_write_cons (first : Segment) (rest : List Segment) :
    (write (first :: rest)).toList.head? = first.name.head? := by
  rw [toList_write_cons, List.head?_append_of_ne_nil _ first.name_ne_nil]

/-- What stands before the first dot of a path is a word without brackets only if that is all of the first
segment. -/
theorem head_write_eq_iff {word : String} (hword : '[' ∉ word.toList) :
    head (write (first :: rest)) = word ↔
      String.ofList first.name = word ∧ first.subscripts = [] := by
  have hname : ∀ c ∈ first.name, decide (c ≠ '.') = true := by
    intro c hc
    exact decide_eq_true fun h => first.not_mem_name (by decide) (h ▸ hc)
  rw [head, toList_write_cons, List.takeWhile_append_of_pos hname]
  cases hsubscripts : first.subscripts with
  | nil =>
    have hnone : (bracketed [] ++ dotted rest).takeWhile (· ≠ '.') = [] := by
      cases rest with
      | nil => rfl
      | cons second rest =>
        rw [bracketed, List.nil_append, dotted_cons, List.takeWhile_cons_of_neg (by simp)]
    rw [hnone, List.append_nil]
    simp
  | cons subscript others =>
    refine iff_of_false (fun hhead => hword ?_) (fun hparts => by cases hparts.2)
    rw [← hhead, String.toList_ofList, bracketed, List.cons_append,
      List.takeWhile_cons_of_pos (by decide)]
    simp

theorem write_mem_keywords_iff :
    write (first :: rest) ∈ keywords ↔
      String.ofList first.name ∈ keywords ∧ first.subscripts = [] ∧ rest = [] := by
  constructor
  · intro hmem
    have hwords : ∀ word ∈ keywords, '[' ∉ word.toList ∧ head word = word := by decide
    obtain ⟨hopening, hhead⟩ := hwords _ hmem
    obtain ⟨hname, hsubscripts⟩ := (head_write_eq_iff hopening).mp hhead
    refine ⟨hname ▸ hmem, hsubscripts, ?_⟩
    have hchars := toList_write_cons first rest
    rw [← hname, String.toList_ofList, hsubscripts, bracketed, List.nil_append,
      List.self_eq_append_right] at hchars
    cases rest with
    | nil => rfl
    | cons second rest =>
      rw [dotted_cons] at hchars
      cases hchars
  · rintro ⟨hmem, hsubscripts, rfl⟩
    have hchars := toList_write_cons first []
    rw [hsubscripts, bracketed, List.nil_append, dotted, written, List.flatMap_nil, List.append_nil]
      at hchars
    rwa [← String.ofList_toList (s := write [first]), hchars]

/-- Whether a name begins with a mark of the engine. -/
def IsMarked (name : List Char) : Prop := name.head? = some '/' ∨ name.head? = some '@'

theorem isReserved_write_iff :
    isReserved (write (first :: rest)) = true ↔ IsMarked first.name ∨
      (String.ofList first.name = "this" ∧ first.subscripts = []) ∨
        (String.ofList first.name ∈ keywords ∧ first.subscripts = [] ∧ rest = []) := by
  have hdot : (first.name.head? == some '.') = false := by
    rw [beq_eq_false_iff_ne]
    exact fun hhead => first.not_mem_name (by decide) (List.mem_of_mem_head? hhead)
  have hthis : head (write (first :: rest)) = "this" ↔
      String.ofList first.name = "this" ∧ first.subscripts = [] := head_write_eq_iff (by decide)
  rw [isReserved, head?_write_cons, hdot, Bool.false_or]
  simp only [Bool.or_eq_true, beq_iff_eq, List.contains_iff_mem, hthis, write_mem_keywords_iff,
    IsMarked, or_assoc]

theorem namesEngine_write_iff (hflat : isFlat (first :: rest) = true)
    (hname : isName first.name = true) :
    namesEngine (names (write (first :: rest))) = true ↔ IsMarked first.name ∨
      String.ofList first.name = "this" ∨
        (String.ofList first.name ∈ keywords ∧ ∀ segment ∈ rest, isName segment.name = false) := by
  have hnames : names (write (first :: rest)) =
      first.name :: (rest.map Segment.name).filter isName := by
    rw [names_write hflat, List.map_cons, List.filter_cons_of_pos hname]
  have hnumbers : ((rest.map Segment.name).filter isName).isEmpty = true ↔
      ∀ segment ∈ rest, isName segment.name = false := by
    simp
  rw [hnames, namesEngine]
  simp only [Bool.or_eq_true, Bool.and_eq_true, beq_iff_eq, List.contains_iff_mem, hnumbers, IsMarked,
    or_assoc, and_comm]

/-- Neither `this` nor a keyword begins with a mark of the engine. -/
theorem not_isMarked {name : List Char} (hword : String.ofList name ∈ "this" :: keywords) :
    ¬ IsMarked name := by
  have hwords : ∀ word ∈ "this" :: keywords,
      word.toList.head? ≠ some '/' ∧ word.toList.head? ≠ some '@' := by decide
  have hname := hwords _ hword
  rw [String.toList_ofList] at hname
  exact not_or.mpr hname

/-- Of the paths in which no subscript holds a subscript, those are disguised that begin with `this` and a
subscript, and those that are a keyword with nothing but subscripts and numbers behind it. -/
theorem isDisguised_write_iff (hflat : isFlat (first :: rest) = true)
    (hname : isName first.name = true) :
    IsDisguised (write (first :: rest)) ↔
      (String.ofList first.name = "this" ∧ first.subscripts ≠ []) ∨
        (String.ofList first.name ∈ keywords ∧ (first.subscripts ≠ [] ∨ rest ≠ []) ∧
          ∀ segment ∈ rest, isName segment.name = false) := by
  rw [IsDisguised, ← Bool.not_eq_true, isReserved_write_iff, namesEngine_write_iff hflat hname]
  constructor
  · rintro ⟨hwritten, hmarked | hthis | ⟨hkeyword, hnumbers⟩⟩
    · exact absurd (.inl hmarked) hwritten
    · exact .inl ⟨hthis, fun hbare => hwritten (.inr (.inl ⟨hthis, hbare⟩))⟩
    · refine .inr ⟨hkeyword, ?_, hnumbers⟩
      rw [← not_and_or]
      exact fun halone => hwritten (.inr (.inr ⟨hkeyword, halone⟩))
  · rintro (⟨hthis, hsubscripts⟩ | ⟨hkeyword, hindex, hnumbers⟩)
    · have hmarked : ¬ IsMarked first.name := not_isMarked (by rw [hthis]; exact List.mem_cons_self)
      have hother : String.ofList first.name ∉ keywords := hthis ▸ by decide
      refine ⟨?_, .inr (.inl hthis)⟩
      rintro (hmark | ⟨_, hbare⟩ | ⟨hkeyword, _⟩)
      · exact hmarked hmark
      · exact hsubscripts hbare
      · exact hother hkeyword
    · have hmarked := not_isMarked (List.mem_cons_of_mem _ hkeyword)
      refine ⟨?_, .inr (.inr ⟨hkeyword, hnumbers⟩)⟩
      rintro (hmark | ⟨hthis, _⟩ | ⟨_, hbare, hrest⟩)
      · exact hmarked hmark
      · have hother : String.ofList first.name ∉ keywords := hthis ▸ by decide
        exact hother hkeyword
      · exact hindex.elim (absurd hbare) (absurd hrest)

end Written

/-- A disguised name begins otherwise than its clean path, or it is a keyword that is written otherwise. -/
theorem IsDisguised.head_ne_or_keyword {name : String} (hname : IsDisguised name) :
    head name ≠ head (clean name) ∨ clean name ∈ keywords ∧ name ≠ clean name := by
  obtain ⟨hwritten, hengine⟩ := hname
  rw [← isReserved_clean] at hengine
  rw [or_iff_not_imp_left, not_not]
  intro hhead
  refine ⟨?_, fun hclean => ?_⟩
  · by_contra hkeyword
    rw [isReserved_of_head_eq hhead hengine hkeyword] at hwritten
    cases hwritten
  · rw [← hclean, hwritten] at hengine
    cases hengine

end Path

namespace Template

/-- The reserved data paths are the clean paths of the disguised names that occur freely. -/
theorem mem_paths_isReserved_iff {nodes : List Node} {path : String} :
    path ∈ paths nodes ∧ Path.isReserved path = true ↔
      ∃ occurrence ∈ occurrences nodes, occurrence.IsFree ∧ Path.clean occurrence.name = path ∧
        Path.IsDisguised occurrence.name := by
  rw [mem_paths_iff]
  constructor
  · rintro ⟨⟨occurrence, hmem, hfree, hpath⟩, hreserved⟩
    obtain ⟨hwritten, _, rfl⟩ := pathOfName?_eq_some_iff.mp hpath
    rw [Path.isReserved_clean] at hreserved
    exact ⟨occurrence, hmem, hfree, rfl, hwritten, hreserved⟩
  · rintro ⟨occurrence, hmem, hfree, rfl, hwritten, hengine⟩
    rw [← Path.isReserved_clean] at hengine
    have hne : Path.clean occurrence.name ≠ "" := by
      intro hempty
      rw [hempty] at hengine
      cases hengine
    exact ⟨⟨occurrence, hmem, hfree, pathOfName?_eq_some_iff.mpr ⟨hwritten, hne, rfl⟩⟩, hengine⟩

/-- No data path of a template refers to the engine exactly if no free name is disguised. A path that does
so comes from a name whose first segment is another than that of its clean path, or it is a keyword that is
written otherwise. Names without subscripts inside of subscripts are disguised only by a subscript of
`this` and by the numbers and subscripts of a keyword. -/
theorem no_reserved_path_iff (nodes : List Node) :
    ((∀ path ∈ paths nodes, Path.isReserved path = false) ↔
        ∀ occurrence ∈ occurrences nodes, occurrence.IsFree → ¬ Path.IsDisguised occurrence.name) ∧
      (∀ path ∈ paths nodes, Path.isReserved path = true →
        ∃ occurrence ∈ occurrences nodes, occurrence.IsFree ∧ Path.clean occurrence.name = path ∧
          Path.IsDisguised occurrence.name ∧
            (Path.head occurrence.name ≠ Path.head path ∨
              path ∈ Path.keywords ∧ occurrence.name ≠ path)) ∧
      ∀ first rest, Path.isFlat (first :: rest) = true → Path.isName first.name = true →
        (Path.IsDisguised (Path.write (first :: rest)) ↔
          (String.ofList first.name = "this" ∧ first.subscripts ≠ []) ∨
            (String.ofList first.name ∈ Path.keywords ∧ (first.subscripts ≠ [] ∨ rest ≠ []) ∧
              ∀ segment ∈ rest, Path.isName segment.name = false)) := by
  refine ⟨⟨fun hpaths occurrence hmem hfree hname => ?_, fun hnames path hpath => ?_⟩,
    fun path hpath hreserved => ?_, fun _ _ => Path.isDisguised_write_iff⟩
  · obtain ⟨hpath, hreserved⟩ :=
      mem_paths_isReserved_iff.mpr ⟨occurrence, hmem, hfree, rfl, hname⟩
    rw [hpaths _ hpath] at hreserved
    cases hreserved
  · rw [← Bool.not_eq_true]
    intro hreserved
    obtain ⟨occurrence, hmem, hfree, _, hname⟩ := mem_paths_isReserved_iff.mp ⟨hpath, hreserved⟩
    exact hnames occurrence hmem hfree hname
  · obtain ⟨occurrence, hmem, hfree, rfl, hname⟩ :=
      mem_paths_isReserved_iff.mp ⟨hpath, hreserved⟩
    exact ⟨occurrence, hmem, hfree, rfl, hname, hname.head_ne_or_keyword⟩

/-- The engine's `this` with a subscript. -/
def thisSource : String := "\x7b\x7b this[0].x \x7d\x7d"

def thisNodes : List Node := [.output .none (.mk (.name "this[0].x") [] false)]

/-- The name is not reserved, and the data path that it stands for is. -/
theorem paths_thisNodes :
    Template.parse thisSource = .ok thisNodes ∧ paths (analysed thisNodes) = ["this.x"] ∧
      Path.isReserved "this.x" = true :=
  ⟨by cbv, by decide +kernel, by decide +kernel⟩

end Template

end DocModel
