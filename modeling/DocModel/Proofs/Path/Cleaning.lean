import DocModel.Path
import DocModel.Proofs.Text.Split
import DocModel.Proofs.Text.Trim

/-!
What cleaning a path gives. A clean path is made of names without dots, so that what it begins with is
decided by the first of them. In particular its names decide whether it refers to the engine.
-/

namespace DocModel.Path

/-- Cleaning keeps what stripping leaves, apart from dots, blanks and digits. -/
theorem mem_clean {c : Char} (hdot : c ≠ '.') (hblank : Text.isBlank c = false)
    (hdigit : c.isDigit = false) {path : String} (hmem : c ∈ stripSubscripts path.toList) :
    c ∈ (clean path).toList := by
  rw [← Text.join_split '.' (stripSubscripts path.toList)] at hmem
  obtain ⟨piece, hpiece, hc⟩ := (Text.eq_or_mem_of_mem_join hmem).resolve_left hdot
  have htrimmed := Text.mem_trim hblank hc
  have hisName : isName (Text.trim piece) = true := by
    have hne : Text.trim piece ≠ [] := List.ne_nil_of_mem htrimmed
    have hsome : (Text.trim piece).all Char.isDigit = false := by
      rw [List.all_eq_false]
      exact ⟨c, htrimmed, by simp [hdigit]⟩
    simp [isName, hne, hsome]
  have hname : Text.trim piece ∈ names path :=
    List.mem_filter.mpr ⟨List.mem_map_of_mem hpiece, hisName⟩
  rw [clean, String.toList_ofList]
  exact Text.mem_join_of_mem '.' hname htrimmed

section Names

variable {path : String} {name : List Char}

theorem isName_of_mem_names (hname : name ∈ names path) : isName name = true :=
  (List.mem_filter.mp hname).2

theorem ne_nil_of_mem_names (hname : name ∈ names path) : name ≠ [] := by
  rintro rfl
  cases isName_of_mem_names hname

theorem dot_not_mem_of_mem_names (hname : name ∈ names path) : '.' ∉ name := by
  obtain ⟨piece, hpiece, rfl⟩ := List.mem_map.mp (List.mem_of_mem_filter hname)
  exact fun hdot => Text.not_mem_of_mem_split hpiece (Text.mem_of_mem_trim hdot)

end Names

/-- The first name and what is behind it make the path. -/
theorem toList_clean {path : String} {first : List Char} {rest : List (List Char)}
    (hnames : names path = first :: rest) :
    (clean path).toList = first ++ rest.flatMap ('.' :: ·) := by
  rw [clean, String.toList_ofList, hnames, Text.join_cons]

section Head

variable {path : String} {first : List Char} {rest : List (List Char)}

theorem head?_clean (hnames : names path = first :: rest) :
    (clean path).toList.head? = first.head? := by
  have hne := ne_nil_of_mem_names (hnames ▸ List.mem_cons_self)
  rw [toList_clean hnames, List.head?_append_of_ne_nil _ hne]

theorem head_clean (hnames : names path = first :: rest) : head (clean path) = String.ofList first := by
  have hdot := dot_not_mem_of_mem_names (hnames ▸ List.mem_cons_self)
  have hrun : ∀ c ∈ first, decide (c ≠ '.') = true := by
    intro c hc
    exact decide_eq_true fun h => hdot (h ▸ hc)
  have hstops : Text.Stops (fun c => decide (c ≠ '.')) (rest.flatMap ('.' :: ·)) := by
    cases rest <;> simp [Text.Stops]
  rw [head, toList_clean hnames, Text.takeWhile_append_of_stops hrun hstops]

/-- A keyword is clean only where it is the one name of a path. -/
theorem keywords_contains_clean (hnames : names path = first :: rest) :
    keywords.contains (clean path) = (rest.isEmpty && keywords.contains (String.ofList first)) := by
  cases rest with
  | nil =>
    have hclean : clean path = String.ofList first := by
      rw [clean, hnames, Text.join]
    rw [hclean, List.isEmpty_nil, Bool.true_and]
  | cons second rest =>
    have hdot : '.' ∈ (clean path).toList := by
      rw [toList_clean hnames, List.flatMap_cons]
      simp
    rw [List.isEmpty_cons, Bool.false_and, List.contains_eq_mem, decide_eq_false_iff_not]
    intro hkeyword
    have hplain : ∀ word ∈ keywords, '.' ∉ word.toList := by decide
    exact hplain _ hkeyword hdot

end Head

/-- Whether names refer to the engine when they are joined: the first one is `this` or begins with a mark of
the engine, or a keyword is all there is. -/
def namesEngine : List (List Char) → Bool
  | [] => false
  | first :: rest =>
    first.head? == some '/' || first.head? == some '@' || String.ofList first == "this" ||
      (rest.isEmpty && keywords.contains (String.ofList first))

theorem isReserved_clean (path : String) : isReserved (clean path) = namesEngine (names path) := by
  cases hnames : names path with
  | nil =>
    have hclean : clean path = "" := by rw [clean, hnames, Text.join]
    rw [hclean, namesEngine]
    decide
  | cons first rest =>
    have hdot : (first.head? == some '.') = false := by
      have hmem := dot_not_mem_of_mem_names (hnames ▸ List.mem_cons_self)
      rw [beq_eq_false_iff_ne]
      exact fun hhead => hmem (List.mem_of_mem_head? hhead)
    rw [isReserved, head?_clean hnames, head_clean hnames, keywords_contains_clean hnames, hdot,
      Bool.false_or, namesEngine]

/-- A path that begins like its clean form is reserved where that is, keywords apart. -/
theorem isReserved_of_head_eq {path : String} (hhead : head path = head (clean path))
    (hclean : isReserved (clean path) = true) (hkeyword : clean path ∉ keywords) :
    isReserved path = true := by
  rw [isReserved_clean] at hclean
  cases hnames : names path with
  | nil =>
    rw [hnames] at hclean
    cases hclean
  | cons first rest =>
    have hcontains := keywords_contains_clean hnames
    rw [List.contains_eq_mem, decide_eq_false hkeyword] at hcontains
    rw [hnames, namesEngine, ← hcontains, Bool.or_false] at hclean
    rw [head_clean hnames] at hhead
    have htaken : path.toList.takeWhile (· ≠ '.') = first := String.ofList_injective hhead
    have hfirst : path.toList.head? = first.head? := by
      have hne := ne_nil_of_mem_names (hnames ▸ List.mem_cons_self)
      rw [← List.takeWhile_append_dropWhile (p := (· ≠ '.')) (l := path.toList), htaken,
        List.head?_append_of_ne_nil _ hne]
    rw [isReserved, hfirst, hhead]
    simp only [Bool.or_eq_true] at hclean ⊢
    tauto

end DocModel.Path
