import DocModel.Text.Replace

/-!
Replacing and cutting leave the front of a text alone when what they look for cannot begin there.
-/

namespace DocModel.Text

variable {c : Char} {mark new front : List Char}

theorem replace_cons_of_ne {d : Char} (hne : d ≠ c) (rest : List Char) :
    replace (c :: mark) new (d :: rest) = d :: replace (c :: mark) new rest := by
  have hhead : (c == d) = false := by simpa using hne.symm
  simp [replace, replaceBehind, List.isPrefixOf, hhead]

theorem replace_append (hfront : c ∉ front) (rest : List Char) :
    replace (c :: mark) new (front ++ rest) = front ++ replace (c :: mark) new rest := by
  induction front with
  | nil => rfl
  | cons d front ih =>
    obtain ⟨hne, hfront⟩ := not_or.mp (mt List.mem_cons.mpr hfront)
    rw [List.cons_append, replace_cons_of_ne (Ne.symm hne), ih hfront, List.cons_append]

theorem replace_eq_self {s : List Char} (hs : c ∉ s) : replace (c :: mark) new s = s := by
  have happend : replace (c :: mark) new (s ++ []) = s ++ replace (c :: mark) new [] :=
    replace_append hs []
  simpa [replace, replaceBehind] using happend

/-- Where a text begins like what is replaced, either that stays or the replacement stands there. -/
theorem replace_cons_cases (c : Char) (mark new rest : List Char) :
    (∃ more, replace (c :: mark) new (c :: rest) = c :: more) ∨
      ∃ more, replace (c :: mark) new (c :: rest) = new ++ more := by
  rw [replace, replaceBehind]
  split
  · exact .inr ⟨_, rfl⟩
  · exact .inl ⟨_, rfl⟩

theorem cut?_append (hfront : c ∉ front) (rest : List Char) :
    cut? (c :: mark) (front ++ rest) =
      (cut? (c :: mark) rest).map fun parts => (front ++ parts.1, parts.2) := by
  induction front with
  | nil => simp
  | cons d front ih =>
    obtain ⟨hne, hfront⟩ := not_or.mp (mt List.mem_cons.mpr hfront)
    have hhead : (c == d) = false := by simpa using hne
    rw [List.cons_append, cut?]
    simp [List.isPrefixOf, hhead, ih hfront, Function.comp_def]

end DocModel.Text
