import DocModel.Proofs.Path.Nameless
import DocModel.Proofs.Path.Segments

/-!
The normal form of paths. A path is clean when it is empty or joins clean segments by dots, and when no
bracket is closed in it. Cleaning yields exactly the clean paths and leaves each of them as it is, so that
cleaning again changes nothing.
-/

namespace DocModel.Path

/-- A segment that cleaning keeps as it is: not empty, not a number, without dots, and without blanks at its
ends. -/
structure IsCleanSegment (segment : List Char) : Prop where
  ne_nil : segment ≠ []
  not_number : ∃ c ∈ segment, c.isDigit = false
  dotless : '.' ∉ segment
  trim_eq : Text.trim segment = segment

/-- Clean segments joined by dots, perhaps none, without a bracket that is closed. -/
def IsNormal (path : String) : Prop :=
  (∃ names, (∀ name ∈ names, IsCleanSegment name) ∧ path.toList = Text.join '.' names) ∧
    ¬ ['[', ']'].Sublist path.toList

theorem IsCleanSegment.isName {segment : List Char} (hsegment : IsCleanSegment segment) :
    isName segment = true := by
  have hempty : segment.isEmpty = false := by simpa using hsegment.ne_nil
  have hdigits : segment.all Char.isDigit = false := by simpa using hsegment.not_number
  rw [Path.isName, hempty, hdigits]
  rfl

variable {path : String}

theorem isCleanSegment_of_mem_names {name : List Char} (hname : name ∈ names path) :
    IsCleanSegment name where
  ne_nil := ne_nil_of_mem_names hname
  not_number := by
    have hisName := isName_of_mem_names hname
    simp only [isName, Bool.and_eq_true, Bool.not_eq_true', List.all_eq_false] at hisName
    simpa using hisName.2
  dotless := dot_not_mem_of_mem_names hname
  trim_eq := by
    obtain ⟨piece, _, rfl⟩ := List.mem_map.mp (List.mem_of_mem_filter hname)
    exact Text.trim_trim piece

/-- What cleaning leaves of a path stands in the path without its subscripts, in the same order. -/
theorem toList_clean_sublist (path : String) :
    (clean path).toList.Sublist (stripSubscripts path.toList) := by
  let pieces := Text.split '.' (stripSubscripts path.toList)
  have hkept : (names path).Sublist (pieces.map Text.trim) := List.filter_sublist
  have htrimmed := Text.join_map_sublist '.' Text.trim_sublist pieces
  rw [Text.join_split] at htrimmed
  rw [clean, String.toList_ofList]
  exact (Text.join_sublist_join '.' hkept).trans htrimmed

theorem isNormal_clean (path : String) : IsNormal (clean path) := by
  refine ⟨⟨names path, fun _ hname => isCleanSegment_of_mem_names hname, ?_⟩, fun hclosed => ?_⟩
  · rw [clean, String.toList_ofList]
  · -- A bracket that is closed in the clean path would be closed in what stripping leaves.
    exact Text.not_sublist_strip path.toList (hclosed.trans (toList_clean_sublist path))

/-- The names of a path in normal form are the segments that it joins. -/
theorem names_of_join {segments : List (List Char)}
    (hsegments : ∀ segment ∈ segments, IsCleanSegment segment)
    (hpath : path.toList = Text.join '.' segments) (hclosed : ¬ ['[', ']'].Sublist path.toList) :
    names path = segments := by
  have hstrip : stripSubscripts path.toList = Text.join '.' segments := by
    rw [stripSubscripts, Text.strip_eq_self hclosed, hpath]
  rw [names, hstrip]
  cases segments with
  | nil => rfl
  | cons first rest =>
    have hsplit := Text.split_join (List.cons_ne_nil first rest) fun segment hsegment =>
      (hsegments segment hsegment).dotless
    have htrim : (first :: rest).map Text.trim = first :: rest :=
      List.map_congr_left (fun segment hsegment => (hsegments segment hsegment).trim_eq)
        |>.trans (List.map_id _)
    rw [hsplit, htrim, List.filter_eq_self]
    exact fun segment hsegment => (hsegments segment hsegment).isName

/-- The paths that cleaning leaves alone are those in normal form. -/
theorem clean_eq_self_iff : clean path = path ↔ IsNormal path := by
  constructor
  · intro hclean
    rw [← hclean]
    exact isNormal_clean path
  · rintro ⟨⟨segments, hsegments, hpath⟩, hclosed⟩
    rw [clean, names_of_join hsegments hpath hclosed, ← hpath, String.ofList_toList]

theorem names_ne_nil_of_clean (hclean : clean path = path) (hne : path ≠ "") : names path ≠ [] := by
  intro hnone
  exact hne (hclean ▸ clean_eq_empty_iff.mpr hnone)

theorem clean_clean (path : String) : clean (clean path) = clean path :=
  clean_eq_self_iff.mpr (isNormal_clean path)

/-- The segments of a clean path are clean. -/
theorem isCleanSegment_of_mem_segments (hclean : clean path = path) (hne : path ≠ "") {segment : String}
    (hsegment : segment ∈ segments path) : IsCleanSegment segment.toList := by
  have hnames := names_ne_nil_of_clean hclean hne
  have hsplit : Text.split '.' path.toList = names path := by
    have hjoin : path.toList = Text.join '.' (names path) := by
      rw [← String.toList_ofList (l := Text.join '.' (names path)), ← clean, hclean]
    rw [hjoin]
    exact Text.split_join hnames fun _ hname => dot_not_mem_of_mem_names hname
  obtain ⟨name, hname, rfl⟩ := List.mem_map.mp hsegment
  rw [hsplit] at hname
  rw [String.toList_ofList]
  exact isCleanSegment_of_mem_names hname

theorem not_isBlankRun_of_clean (hclean : clean path = path) (hne : path ≠ "") :
    ¬ Text.IsBlankRun path.toList := by
  intro hblank
  have hnames := names_ne_nil_of_clean hclean hne
  obtain ⟨first, rest, hfirst⟩ := List.exists_cons_of_ne_nil hnames
  have hsegment := isCleanSegment_of_mem_names (hfirst ▸ List.mem_cons_self)
  have hmem : ∀ c ∈ first, c ∈ path.toList := by
    rw [← hclean, toList_clean hfirst]
    exact fun c hc => List.mem_append_left _ hc
  have htrim : Text.trim first = [] := Text.trim_eq_nil_iff.mpr fun c hc => hblank c (hmem c hc)
  exact hsegment.ne_nil (hsegment.trim_eq ▸ htrim)

/-- A subscript that is closed goes, and so does the number behind it, but an open bracket stays. -/
example : clean " rows [ 0 ].1. total[" = "rows.total[" ∧ clean "rows.total[" = "rows.total[" := by
  decide +kernel

end DocModel.Path
