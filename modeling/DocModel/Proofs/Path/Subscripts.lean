import DocModel.Proofs.Path.Cleaning
import DocModel.Proofs.Text.Strip

/-!
Paths with subscripts. A subscript holds a literal or again a path, whose segments may have subscripts of
their own. Cleaning ends a subscript at the first closing bracket. So it removes the subscripts of a path
completely exactly if none of them holds a subscript; otherwise a closing bracket is left in the clean
path.
-/

namespace DocModel.Path

/-- The characters of names in a path: all but blanks, dots and brackets. -/
def isSegmentChar (c : Char) : Bool :=
  c ≠ '.' && c ≠ '[' && c ≠ ']' && !Text.isBlank c

theorem isSegmentChar_of_wordChar {c : Char} (hc : (c.isAlphanum || decide (c = '_')) = true) :
    isSegmentChar c = true := by
  have hsolid := Text.isBlank_of_wordChar hc
  have hmarks : c ∉ ['.', '[', ']'] := by
    intro hmem
    simp only [List.mem_cons, List.not_mem_nil, or_false] at hmem
    rcases hmem with rfl | rfl | rfl <;> cases hc
  simp only [List.mem_cons, List.not_mem_nil, or_false, not_or] at hmarks
  simp [isSegmentChar, hmarks, hsolid]

/-- The name of a segment. -/
structure SegmentName where
  chars : List Char
  ne_nil : chars ≠ []
  segmentChars : ∀ c ∈ chars, isSegmentChar c = true

namespace SegmentName

variable (name : SegmentName)

theorem not_mem {c : Char} (hc : isSegmentChar c = false) : c ∉ name.chars := by
  intro hmem
  rw [name.segmentChars c hmem] at hc
  cases hc

theorem trim_chars : Text.trim name.chars = name.chars := by
  refine Text.trim_of_not_blank fun c hc => ?_
  have hchar := name.segmentChars c hc
  simp only [isSegmentChar, Bool.and_eq_true, Bool.not_eq_true'] at hchar
  exact hchar.2

/-- A word of letters, digits and underscores names a segment. -/
def ofWord (word : List Char) (hne : word ≠ [])
    (hword : word.all (fun c => c.isAlphanum || decide (c = '_')) = true) : SegmentName :=
  ⟨word, hne, fun c hc => isSegmentChar_of_wordChar (List.all_eq_true.mp hword c hc)⟩

end SegmentName

/-- A subscript that is no path: an index, or a quoted key without brackets. -/
structure Literal where
  chars : List Char
  opening_not_mem : '[' ∉ chars
  closing_not_mem : ']' ∉ chars

mutual

/-- A segment of a path, a name with any number of subscripts behind it. -/
inductive Segment where
  | mk (name : SegmentName) (subscripts : List Subscript)

/-- What stands between the brackets of a subscript. -/
inductive Subscript where
  | literal (value : Literal)
  | path (segments : List Segment)

end

mutual

/-- A segment as it is written. -/
def Segment.chars : Segment → List Char
  | .mk name subscripts => name.chars ++ bracketed subscripts

def Subscript.chars : Subscript → List Char
  | .literal value => value.chars
  | .path segments => Text.join '.' (written segments)

/-- Subscripts as they are written behind a name. -/
def bracketed : List Subscript → List Char
  | [] => []
  | subscript :: rest => '[' :: (subscript.chars ++ ']' :: bracketed rest)

def written : List Segment → List (List Char)
  | [] => []
  | segment :: rest => segment.chars :: written rest

end

theorem written_eq_map (segments : List Segment) : written segments = segments.map Segment.chars := by
  induction segments with
  | nil => rfl
  | cons segment rest ih => rw [written, ih, List.map_cons]

/-- The path of some segments, as it is written. -/
def write (segments : List Segment) : String := String.ofList (Text.join '.' (written segments))

namespace Segment

def name : Segment → List Char
  | .mk name _ => name.chars

def subscripts : Segment → List Subscript
  | .mk _ subscripts => subscripts

/-- The segment without its subscripts. -/
def bare : Segment → Segment
  | .mk name _ => .mk name []

@[simp] theorem name_bare (segment : Segment) : segment.bare.name = segment.name := by
  cases segment
  rfl

@[simp] theorem subscripts_bare (segment : Segment) : segment.bare.subscripts = [] := by
  cases segment
  rfl

theorem chars_eq (segment : Segment) :
    segment.chars = segment.name ++ bracketed segment.subscripts := by
  cases segment
  rw [chars, name, subscripts]

theorem not_mem_name (segment : Segment) {c : Char} (hc : isSegmentChar c = false) :
    c ∉ segment.name := by
  cases segment with
  | mk name _ => exact name.not_mem hc

theorem name_ne_nil (segment : Segment) : segment.name ≠ [] := by
  cases segment with
  | mk name _ => exact name.ne_nil

theorem trim_name (segment : Segment) : Text.trim segment.name = segment.name := by
  cases segment with
  | mk name _ => exact name.trim_chars

end Segment

/-- The path of the names of some segments, without those that are numbers. -/
def ofNames (segments : List Segment) : String :=
  String.ofList (Text.join '.' ((segments.map Segment.name).filter isName))

/-- Whether a subscript holds no subscripts. -/
def Subscript.isFlat : Subscript → Bool
  | .literal _ => true
  | .path segments => segments.all (·.subscripts.isEmpty)

/-- Whether no subscript of a path holds a subscript. -/
def isFlat (segments : List Segment) : Bool :=
  segments.all (·.subscripts.all Subscript.isFlat)

/-- The segments of a path as they are written, each behind a dot. -/
def dotted (segments : List Segment) : List Char := (written segments).flatMap ('.' :: ·)

theorem dotted_cons (segment : Segment) (rest : List Segment) :
    dotted (segment :: rest) =
      '.' :: (segment.name ++ (bracketed segment.subscripts ++ dotted rest)) := by
  rw [dotted, written, List.flatMap_cons, ← dotted, segment.chars_eq, List.cons_append,
    List.append_assoc]

theorem toList_write_cons (first : Segment) (rest : List Segment) :
    (write (first :: rest)).toList = first.name ++ (bracketed first.subscripts ++ dotted rest) := by
  rw [write, String.toList_ofList, written, Text.join_cons, ← dotted, first.chars_eq,
    List.append_assoc]

/-- The path is what stands behind the first dot. -/
theorem dotted_of_ne_nil {segments : List Segment} (hne : segments ≠ []) :
    dotted segments = '.' :: Text.join '.' (written segments) := by
  cases segments with
  | nil => exact absurd rfl hne
  | cons segment rest => rw [dotted, written, List.flatMap_cons, Text.join_cons, List.cons_append]

section Balance

/-- A text with as many opening as closing brackets. -/
def IsBalanced (s : List Char) : Prop := s.count '[' = s.count ']'

theorem isBalanced_of_not_mem {s : List Char} (hopening : '[' ∉ s) (hclosing : ']' ∉ s) :
    IsBalanced s := by
  rw [IsBalanced, List.count_eq_zero.mpr hopening, List.count_eq_zero.mpr hclosing]

theorem IsBalanced.append {s rest : List Char} (hs : IsBalanced s) (hrest : IsBalanced rest) :
    IsBalanced (s ++ rest) := by
  rw [IsBalanced, List.count_append, List.count_append, hs, hrest]

theorem isBalanced_dot_cons {s : List Char} : IsBalanced ('.' :: s) ↔ IsBalanced s := by
  simp [IsBalanced]

theorem IsBalanced.bracket {s rest : List Char} (hs : IsBalanced s) (hrest : IsBalanced rest) :
    IsBalanced ('[' :: (s ++ ']' :: rest)) := by
  rw [IsBalanced] at *
  simp only [List.count_cons, List.count_append, beq_self_eq_true, if_true, Char.reduceBEq,
    Bool.false_eq_true, if_false]
  omega

mutual

theorem isBalanced_subscript : ∀ subscript : Subscript, IsBalanced subscript.chars
  | .literal value => by
    rw [Subscript.chars]
    exact isBalanced_of_not_mem value.opening_not_mem value.closing_not_mem
  | .path [] => by
    rw [Subscript.chars, written]
    rfl
  | .path (segment :: rest) => by
    have hdotted := isBalanced_dotted (segment :: rest)
    rw [dotted_of_ne_nil (List.cons_ne_nil _ _)] at hdotted
    rw [Subscript.chars]
    exact isBalanced_dot_cons.mp hdotted

theorem isBalanced_bracketed : ∀ subscripts : List Subscript, IsBalanced (bracketed subscripts)
  | [] => by
    rw [bracketed]
    rfl
  | subscript :: rest => by
    rw [bracketed]
    exact (isBalanced_subscript subscript).bracket (isBalanced_bracketed rest)

theorem isBalanced_dotted : ∀ segments : List Segment, IsBalanced (dotted segments)
  | [] => rfl
  | .mk name subscripts :: rest => by
    have hname := isBalanced_of_not_mem (name.not_mem (c := '[') (by decide))
      (name.not_mem (c := ']') (by decide))
    rw [dotted_cons, isBalanced_dot_cons]
    exact hname.append ((isBalanced_bracketed subscripts).append (isBalanced_dotted rest))

end

end Balance

section Stripping

theorem Segment.chars_of_bare {segment : Segment} (hbare : segment.subscripts.isEmpty = true) :
    segment.chars = segment.name := by
  rw [chars_eq, List.isEmpty_iff.mp hbare, bracketed, List.append_nil]

theorem Subscript.closing_not_mem {subscript : Subscript} (hflat : subscript.isFlat = true) :
    ']' ∉ subscript.chars := by
  cases subscript with
  | literal value =>
    rw [chars]
    exact value.closing_not_mem
  | path segments =>
    rw [isFlat, List.all_eq_true] at hflat
    rw [chars, written_eq_map]
    intro hmem
    rcases Text.eq_or_mem_of_mem_join hmem with hdot | ⟨piece, hpiece, hclosing⟩
    · cases hdot
    · obtain ⟨segment, hsegment, rfl⟩ := List.mem_map.mp hpiece
      rw [Segment.chars_of_bare (hflat segment hsegment)] at hclosing
      exact segment.not_mem_name (by decide) hclosing

/-- Flat subscripts are removed one after the other. -/
theorem strip_bracketed_append {subscripts : List Subscript}
    (hflat : subscripts.all Subscript.isFlat = true) (rest : List Char) :
    Text.strip '[' ']' (bracketed subscripts ++ rest) = Text.strip '[' ']' rest := by
  induction subscripts with
  | nil => rw [bracketed, List.nil_append]
  | cons subscript others ih =>
    rw [List.all_cons, Bool.and_eq_true] at hflat
    rw [bracketed, List.cons_append, List.append_assoc, List.cons_append,
      Text.strip_bracketed (Subscript.closing_not_mem hflat.1), ih hflat.2]

theorem strip_dotted_cons (segment : Segment) (rest : List Segment) :
    Text.strip '[' ']' (dotted (segment :: rest)) =
      '.' :: (segment.name ++ Text.strip '[' ']' (bracketed segment.subscripts ++ dotted rest)) := by
  rw [dotted_cons, Text.strip_cons_of_ne (by decide),
    Text.strip_append (segment.not_mem_name (by decide))]

theorem strip_dotted {segments : List Segment} (hflat : isFlat segments = true) :
    Text.strip '[' ']' (dotted segments) = (segments.map Segment.name).flatMap ('.' :: ·) := by
  induction segments with
  | nil => simp [dotted, written, Text.strip]
  | cons segment rest ih =>
    rw [isFlat, List.all_cons, Bool.and_eq_true] at hflat
    rw [strip_dotted_cons, strip_bracketed_append hflat.1, ih hflat.2, List.map_cons,
      List.flatMap_cons, List.cons_append]

/-- Where the first bracket inside of a subscript is an opening one, the subscript is ended too early, and of
the closing brackets behind that place one has no opening bracket. -/
theorem closing_mem_strip {front inside rest : List Char} (hfront : ']' ∉ front)
    (hinside : IsBalanced (front ++ '[' :: inside)) (hrest : IsBalanced rest) :
    ']' ∈ Text.strip '[' ']' ('[' :: ((front ++ '[' :: inside) ++ ']' :: rest)) := by
  have hcount : front.count '[' + (inside.count '[' + 1) = inside.count ']' := by
    simpa [IsBalanced, List.count_eq_zero.mpr hfront] using hinside
  have hclosing : ']' ∈ inside := by
    rw [← List.count_pos_iff]
    omega
  obtain ⟨middle, behind, rfl, hmiddle⟩ := List.eq_append_cons_of_mem hclosing
  have hremoved : ']' ∉ front ++ '[' :: middle := by simp [hfront, hmiddle]
  have hparts : front ++ '[' :: (middle ++ ']' :: behind) ++ ']' :: rest =
      (front ++ '[' :: middle) ++ ']' :: (behind ++ ']' :: rest) := by simp
  rw [hparts, Text.strip_bracketed hremoved]
  refine Text.mem_strip_of_count_lt (by decide) ?_
  rw [IsBalanced] at hrest
  simp only [List.count_append, List.count_cons, List.count_eq_zero.mpr hmiddle, beq_self_eq_true,
    if_true, Char.reduceBEq, Bool.false_eq_true, if_false] at hcount ⊢
  omega

/-- Unless no segment has a subscript, the first bracket of a path is an opening one. -/
theorem exists_opening {segments : List Segment}
    (hbare : segments.all (·.subscripts.isEmpty) = false) :
    ∃ front behind, ']' ∉ front ∧ dotted segments = front ++ '[' :: behind := by
  induction segments with
  | nil => cases hbare
  | cons segment rest ih =>
    have hname := segment.not_mem_name (c := ']') (by decide)
    rw [dotted_cons]
    cases hsubscripts : segment.subscripts with
    | nil =>
      rw [List.all_cons, hsubscripts] at hbare
      obtain ⟨front, behind, hfront, hrest⟩ := ih hbare
      refine ⟨'.' :: (segment.name ++ front), behind, by simp [hname, hfront], ?_⟩
      rw [bracketed, List.nil_append, hrest, List.cons_append, List.append_assoc]
    | cons subscript others =>
      refine ⟨'.' :: segment.name, (subscript.chars ++ ']' :: bracketed others) ++ dotted rest,
        by simp [hname], ?_⟩
      rw [bracketed, List.cons_append, List.cons_append]

/-- A subscript that is not flat leaves a closing bracket. -/
theorem closing_mem_strip_bracketed {subscripts : List Subscript}
    (hflat : subscripts.all Subscript.isFlat = false) {rest : List Char} (hrest : IsBalanced rest) :
    ']' ∈ Text.strip '[' ']' (bracketed subscripts ++ rest) := by
  induction subscripts with
  | nil => cases hflat
  | cons subscript others ih =>
    rw [bracketed, List.cons_append, List.append_assoc, List.cons_append]
    cases hsubscript : subscript.isFlat with
    | true =>
      rw [List.all_cons, hsubscript, Bool.true_and] at hflat
      rw [Text.strip_bracketed (Subscript.closing_not_mem hsubscript)]
      exact ih hflat
    | false =>
      cases subscript with
      | literal value => cases hsubscript
      | path segments =>
        obtain ⟨front, behind, hfront, hdotted⟩ := exists_opening hsubscript
        have hne : segments ≠ [] := by
          rintro rfl
          cases hsubscript
        have hbalanced := isBalanced_dotted segments
        rw [dotted_of_ne_nil hne] at hdotted hbalanced
        -- What stands in the brackets begins behind the first dot.
        cases front with
        | nil => cases hdotted
        | cons dot front =>
          obtain ⟨rfl, hinside⟩ := List.cons_eq_cons.mp hdotted
          rw [isBalanced_dot_cons, hinside] at hbalanced
          rw [Subscript.chars, hinside]
          exact closing_mem_strip (fun hmem => hfront (List.mem_cons_of_mem _ hmem)) hbalanced
            ((isBalanced_bracketed others).append hrest)

theorem closing_mem_strip_dotted {segments : List Segment} (hflat : isFlat segments = false) :
    ']' ∈ Text.strip '[' ']' (dotted segments) := by
  induction segments with
  | nil => cases hflat
  | cons segment rest ih =>
    rw [strip_dotted_cons, List.mem_cons, List.mem_append]
    refine .inr (.inr ?_)
    cases hsegment : segment.subscripts.all Subscript.isFlat with
    | true =>
      rw [isFlat, List.all_cons, hsegment, Bool.true_and] at hflat
      rw [strip_bracketed_append hsegment]
      exact ih hflat
    | false => exact closing_mem_strip_bracketed hsegment (isBalanced_dotted rest)

end Stripping

section Cleaning

/-- Without its subscripts a flat path is that of its names. -/
theorem stripSubscripts_write {segments : List Segment} (hflat : isFlat segments = true) :
    stripSubscripts (write segments).toList = Text.join '.' (segments.map Segment.name) := by
  rw [stripSubscripts, write, String.toList_ofList]
  cases segments with
  | nil => simp [written, Text.strip, Text.join]
  | cons segment rest =>
    have hstrip := strip_dotted hflat
    rw [dotted_of_ne_nil (List.cons_ne_nil _ _), Text.strip_cons_of_ne (by decide), List.map_cons,
      List.flatMap_cons, List.cons_append, ← Text.join_cons] at hstrip
    exact (List.cons_eq_cons.mp hstrip).2

theorem names_write {segments : List Segment} (hflat : isFlat segments = true) :
    names (write segments) = (segments.map Segment.name).filter isName := by
  rw [names, stripSubscripts_write hflat]
  cases segments with
  | nil => rfl
  | cons segment rest =>
    have hdots : ∀ piece ∈ (segment :: rest).map Segment.name, '.' ∉ piece := by
      intro piece hpiece
      obtain ⟨other, _, rfl⟩ := List.mem_map.mp hpiece
      exact other.not_mem_name (by decide)
    have htrim : ((segment :: rest).map Segment.name).map Text.trim =
        (segment :: rest).map Segment.name := by
      rw [List.map_map]
      exact List.map_congr_left fun other _ => other.trim_name
    rw [Text.split_join (by simp) hdots, htrim]

theorem clean_write {segments : List Segment} (hflat : isFlat segments = true) :
    clean (write segments) = ofNames segments := by
  rw [clean, names_write hflat, ofNames]

theorem closing_mem_clean_write {segments : List Segment} (hflat : isFlat segments = false) :
    ']' ∈ (clean (write segments)).toList := by
  refine mem_clean (by decide) (by decide) (by decide) ?_
  have hne : segments ≠ [] := by
    rintro rfl
    cases hflat
  have hdotted := closing_mem_strip_dotted hflat
  rw [dotted_of_ne_nil hne, Text.strip_cons_of_ne (by decide), List.mem_cons] at hdotted
  rw [stripSubscripts, write, String.toList_ofList]
  exact hdotted.resolve_left (by decide)

theorem not_mem_ofNames {segments : List Segment} {c : Char} (hdot : c ≠ '.')
    (hc : isSegmentChar c = false) : c ∉ (ofNames segments).toList := by
  rw [ofNames, String.toList_ofList]
  intro hmem
  obtain ⟨piece, hpiece, hcpiece⟩ := (Text.eq_or_mem_of_mem_join hmem).resolve_left hdot
  obtain ⟨segment, _, rfl⟩ := List.mem_map.mp (List.mem_of_mem_filter hpiece)
  exact segment.not_mem_name hc hcpiece

theorem isFlat_map_bare (segments : List Segment) : isFlat (segments.map Segment.bare) = true := by
  rw [isFlat, List.all_eq_true]
  intro segment hsegment
  obtain ⟨whole, _, rfl⟩ := List.mem_map.mp hsegment
  rw [Segment.subscripts_bare, List.all_nil]

theorem ofNames_map_bare (segments : List Segment) :
    ofNames (segments.map Segment.bare) = ofNames segments := by
  have hnames : Segment.name ∘ Segment.bare = Segment.name := funext Segment.name_bare
  rw [ofNames, List.map_map, hnames, ofNames]

/-- Cleaning gives the path of the names that are no numbers, without a bracket and the same as for the
path without subscripts, exactly for those paths that have no subscript inside of a subscript. -/
theorem clean_write_iff_isFlat (segments : List Segment) :
    (clean (write segments) = ofNames segments ↔ isFlat segments = true) ∧
      ((∀ c ∈ (clean (write segments)).toList, c ≠ '[' ∧ c ≠ ']') ↔ isFlat segments = true) ∧
      (clean (write segments) = clean (write (segments.map Segment.bare)) ↔
        isFlat segments = true) := by
  have hopening : '[' ∉ (ofNames segments).toList := not_mem_ofNames (by decide) (by decide)
  have hclosing : ']' ∉ (ofNames segments).toList := not_mem_ofNames (by decide) (by decide)
  rw [clean_write (isFlat_map_bare segments), ofNames_map_bare]
  cases hflat : isFlat segments with
  | true =>
    rw [clean_write hflat]
    refine ⟨iff_of_true rfl rfl, iff_of_true (fun c hc => ⟨?_, ?_⟩) rfl, iff_of_true rfl rfl⟩
    · rintro rfl
      exact hopening hc
    · rintro rfl
      exact hclosing hc
  | false =>
    have hleft := closing_mem_clean_write hflat
    have hne : clean (write segments) ≠ ofNames segments := fun h => hclosing (h ▸ hleft)
    exact ⟨iff_of_false hne nofun, iff_of_false (fun h => (h _ hleft).2 rfl) nofun,
      iff_of_false hne nofun⟩

/-- The path `data.rows[data.idx[0]].name`. -/
def rowPath : List Segment :=
  let data := SegmentName.ofWord "data".toList (by decide) (by decide)
  let rows := SegmentName.ofWord "rows".toList (by decide) (by decide)
  let name := SegmentName.ofWord "name".toList (by decide) (by decide)
  let idx := SegmentName.ofWord "idx".toList (by decide) (by decide)
  let zero : Literal := ⟨['0'], by decide, by decide⟩
  [.mk data [], .mk rows [.path [.mk data [], .mk idx [.literal zero]]], .mk name []]

/-- The subscript inside of the subscript leaves its bracket in the clean path. -/
theorem clean_write_rowPath :
    write rowPath = "data.rows[data.idx[0]].name" ∧ ofNames rowPath = "data.rows.name" ∧
      clean (write rowPath) = "data.rows].name" := by
  decide +kernel

end Cleaning

end DocModel.Path
