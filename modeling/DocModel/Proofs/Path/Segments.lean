import DocModel.Path
import DocModel.Proofs.Text.Split
import Mathlib.Data.List.Infix

/-!
Paths and their segments. A path is determined by its segments, and segments without a dot are those
of the path that they make. The leading segments of a path make its dot prefixes.
-/

namespace DocModel.Path

/-- A segment holds no dot. -/
def IsSegment (segment : String) : Prop := '.' ∉ segment.toList

theorem segments_ne_nil (path : String) : segments path ≠ [] := by
  simp [segments, Text.split_ne_nil]

theorem isSegment_of_mem_segments {path segment : String} (hmem : segment ∈ segments path) :
    IsSegment segment := by
  obtain ⟨piece, hpiece, rfl⟩ := List.mem_map.mp hmem
  simpa [IsSegment] using Text.not_mem_of_mem_split hpiece

theorem segments_ofSegments {names : List String} (hne : names ≠ [])
    (hnames : ∀ name ∈ names, IsSegment name) : segments (ofSegments names) = names := by
  have hpieces : ∀ piece ∈ names.map String.toList, '.' ∉ piece := by
    intro piece hpiece
    obtain ⟨name, hname, rfl⟩ := List.mem_map.mp hpiece
    exact hnames name hname
  rw [segments, ofSegments, String.toList_ofList, Text.split_join (by simpa using hne) hpieces,
    List.map_map]
  simp

theorem ofSegments_segments (path : String) : ofSegments (segments path) = path := by
  have hpieces : (segments path).map String.toList = Text.split '.' path.toList := by
    simp [segments, Function.comp_def]
  rw [ofSegments, hpieces, Text.join_split, String.ofList_toList]

theorem exists_segments_eq_cons (path : String) : ∃ rest, segments path = head path :: rest := by
  obtain ⟨pieces, hpieces⟩ := Text.exists_split_eq_cons '.' path.toList
  exact ⟨pieces.map String.ofList, by rw [segments, hpieces, List.map_cons, head]⟩

theorem ofSegments_singleton (name : String) : ofSegments [name] = name := by
  simp [ofSegments, Text.join]

theorem ofSegments_append_singleton {names : List String} (hne : names ≠ []) (last : String) :
    ofSegments (names ++ [last]) = ofSegments names ++ "." ++ last := by
  have hne' : names.map String.toList ≠ [] := by simpa using hne
  apply String.toList_injective
  simp [ofSegments, Text.join_append_singleton '.' hne']

/-- The leading parts of some segments that hold at least the first one, the shortest first. -/
def leading : List String → List (List String)
  | [] => []
  | segment :: rest => [segment] :: (leading rest).map (segment :: ·)

theorem mem_leading_cons {segment : String} {rest chain : List String} :
    chain ∈ leading (segment :: rest) ↔
      ∃ below, chain = segment :: below ∧ (below = [] ∨ below ∈ leading rest) := by
  rw [leading, List.mem_cons, List.mem_map]
  constructor
  · rintro (rfl | ⟨below, hbelow, rfl⟩)
    · exact ⟨[], rfl, .inl rfl⟩
    · exact ⟨below, rfl, .inr hbelow⟩
  · rintro ⟨below, rfl, rfl | hbelow⟩
    · exact .inl rfl
    · exact .inr ⟨below, hbelow, rfl⟩

theorem mem_leading {names chain : List String} :
    chain ∈ leading names ↔ chain ≠ [] ∧ chain <+: names := by
  induction names generalizing chain with
  | nil => simp [leading]
  | cons segment rest ih =>
    rw [mem_leading_cons]
    constructor
    · rintro ⟨below, rfl, rfl | hbelow⟩
      · simp
      · exact ⟨List.cons_ne_nil _ _, List.cons_prefix_cons.mpr ⟨rfl, (ih.mp hbelow).2⟩⟩
    · rintro ⟨hne, hprefix⟩
      cases chain with
      | nil => exact absurd rfl hne
      | cons first below =>
        obtain ⟨rfl, hbelow⟩ := List.cons_prefix_cons.mp hprefix
        exact ⟨below, rfl, or_iff_not_imp_left.mpr fun hnil => ih.mpr ⟨hnil, hbelow⟩⟩

/-- The longest leading part is all of the segments. -/
theorem getLast?_leading {names : List String} (hne : names ≠ []) :
    (leading names).getLast? = some names := by
  induction names with
  | nil => exact absurd rfl hne
  | cons segment rest ih =>
    cases rest with
    | nil => rfl
    | cons next rest =>
      have hrest := ih (List.cons_ne_nil next rest)
      rw [leading, List.getLast?_cons, List.getLast?_map, hrest]
      rfl

/-- The leading segments of a path are those of the path that they make. -/
theorem segments_ofSegments_of_mem_leading {path : String} {chain : List String}
    (hchain : chain ∈ leading (segments path)) : segments (ofSegments chain) = chain := by
  obtain ⟨hne, hprefix⟩ := mem_leading.mp hchain
  have hnames : ∀ name ∈ chain, IsSegment name := fun name hname =>
    isSegment_of_mem_segments (List.IsPrefix.subset hprefix hname)
  exact segments_ofSegments hne hnames

/-- The leading segments of a path begin like the path. -/
theorem head?_of_mem_leading {path : String} {chain : List String}
    (hchain : chain ∈ leading (segments path)) : chain.head? = some (head path) := by
  obtain ⟨rest, hsegments⟩ := exists_segments_eq_cons path
  rw [hsegments] at hchain
  obtain ⟨below, rfl, _⟩ := mem_leading_cons.mp hchain
  rfl

/-- The paths that one or more leading segments of a path make, the shortest first. -/
def dotPrefixes (path : String) : List String :=
  (leading (segments path)).map ofSegments

example : dotPrefixes "guest.name.first" = ["guest", "guest.name", "guest.name.first"] := by decide

theorem mem_dotPrefixes {name path : String} :
    name ∈ dotPrefixes path ↔ segments name <+: segments path := by
  rw [dotPrefixes, List.mem_map]
  constructor
  · rintro ⟨chain, hchain, rfl⟩
    rw [segments_ofSegments_of_mem_leading hchain]
    exact (mem_leading.mp hchain).2
  · intro hprefix
    have hleading := mem_leading.mpr ⟨segments_ne_nil name, hprefix⟩
    exact ⟨segments name, hleading, ofSegments_segments name⟩

end DocModel.Path
