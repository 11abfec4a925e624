/-!
Replacing parts of a text. An occurrence is taken from left to right, and what is put in is not
looked at again.
-/

namespace DocModel.Text

/-- `replace` behind `skip` characters that belong to an occurrence. -/
def replaceBehind (old new : List Char) : Nat → List Char → List Char
  | _, [] => []
  | skip + 1, _ :: rest => replaceBehind old new skip rest
  | 0, c :: rest =>
    if old.isPrefixOf (c :: rest) then new ++ replaceBehind old new (old.length - 1) rest
    else c :: replaceBehind old new 0 rest

/-- A text with `new` in the place of every occurrence of `old`. -/
def replace (old new s : List Char) : List Char :=
  replaceBehind old new 0 s

/-- The parts of a text before and behind the first occurrence of `mark`. -/
def cut? (mark : List Char) : List Char → Option (List Char × List Char)
  | [] => none
  | c :: rest =>
    if mark.isPrefixOf (c :: rest) then some ([], (c :: rest).drop mark.length)
    else (cut? mark rest).map fun (before, behind) => (c :: before, behind)

/-- The text behind the first `count` bytes, and these bytes, unless they end inside a character. -/
def splitBytes? : Nat → List Char → Option (List Char × List Char)
  | 0, s => some ([], s)
  | _ + 1, [] => none
  | count + 1, c :: rest =>
    if c.utf8Size ≤ count + 1 then
      (splitBytes? (count + 1 - c.utf8Size) rest).map fun (taken, behind) => (c :: taken, behind)
    else none

/-- Around the first occurrence, the parts make up the text. -/
theorem append_of_cut? {mark s before behind : List Char}
    (h : cut? mark s = some (before, behind)) : before ++ mark ++ behind = s := by
  induction s generalizing before with
  | nil => simp [cut?] at h
  | cons c rest ih =>
    rw [cut?] at h
    split at h
    · next hmark =>
      obtain ⟨tail, htail⟩ := List.isPrefixOf_iff_prefix.1 hmark
      cases h
      simp [← htail]
    · obtain ⟨parts, hparts, heq⟩ := Option.map_eq_some_iff.1 h
      cases heq
      simpa using ih hparts

/-- Splitting a text loses nothing. -/
theorem append_of_splitBytes? {count : Nat} {s taken behind : List Char}
    (h : splitBytes? count s = some (taken, behind)) : taken ++ behind = s := by
  induction s generalizing count taken with
  | nil => cases count <;> simp_all [splitBytes?]
  | cons c rest ih =>
    cases count with
    | zero => simp_all [splitBytes?]
    | succ count =>
      rw [splitBytes?] at h
      split at h
      · obtain ⟨parts, hparts, heq⟩ := Option.map_eq_some_iff.1 h
        cases heq
        simpa using ih hparts
      · exact absurd h (by simp)

end DocModel.Text
