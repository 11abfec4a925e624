import DocModel.Text.Split
import Mathlib.Data.List.Flatten

/-!
Splitting and joining undo each other: joining always undoes splitting, and splitting undoes joining
when no piece holds the separator.
-/

namespace DocModel.Text

theorem not_mem_of_mem_split {sep : Char} {s piece : List Char} (hmem : piece ∈ split sep s) :
    sep ∉ piece := by
  induction s generalizing piece with
  | nil =>
    obtain rfl : piece = [] := by simpa [split] using hmem
    simp
  | cons c rest ih =>
    rw [split] at hmem
    by_cases hc : c = sep
    · rw [if_pos hc] at hmem
      rcases List.mem_cons.mp hmem with rfl | hrest
      · simp
      · exact ih hrest
    · rw [if_neg hc] at hmem
      cases hs : split sep rest with
      | nil => exact absurd hs (split_ne_nil sep rest)
      | cons first pieces =>
        rw [hs] at hmem ih
        rcases List.mem_cons.mp hmem with rfl | hpiece
        · have hfirst := ih List.mem_cons_self
          simp [hfirst, Ne.symm hc]
        · exact ih (List.mem_cons_of_mem first hpiece)

theorem split_of_not_mem {sep : Char} {s : List Char} (hs : sep ∉ s) : split sep s = [s] := by
  induction s with
  | nil => rfl
  | cons c rest ih =>
    have hc : c ≠ sep := fun h => hs (h ▸ List.mem_cons_self)
    have hrest := ih fun h => hs (List.mem_cons_of_mem c h)
    rw [split, if_neg hc, hrest]

/-- A separator splits a text, whatever stands around it. -/
theorem split_append_cons (sep : Char) (s rest : List Char) :
    split sep (s ++ sep :: rest) = split sep s ++ split sep rest := by
  induction s with
  | nil => simp [split]
  | cons c s ih =>
    rw [List.cons_append, split, split, ih]
    split
    · rfl
    · cases hs : split sep s with
      | nil => exact absurd hs (split_ne_nil sep s)
      | cons piece pieces => rfl

theorem split_append_sep {sep : Char} {s : List Char} (hs : sep ∉ s) (rest : List Char) :
    split sep (s ++ sep :: rest) = s :: split sep rest := by
  rw [split_append_cons, split_of_not_mem hs, List.singleton_append]

/-- The first piece is what stands before the first separator. -/
theorem exists_split_eq_cons (sep : Char) (s : List Char) :
    ∃ pieces, split sep s = s.takeWhile (· ≠ sep) :: pieces := by
  induction s with
  | nil => exact ⟨[], rfl⟩
  | cons c rest ih =>
    obtain ⟨pieces, hpieces⟩ := ih
    rw [split]
    by_cases hc : c = sep
    · simp [hc]
    · simp [hc, hpieces]

/-- Splitting what was joined gives the pieces back, unless a piece holds the separator. -/
theorem split_join {sep : Char} {pieces : List (List Char)} (hne : pieces ≠ [])
    (hpieces : ∀ piece ∈ pieces, sep ∉ piece) : split sep (join sep pieces) = pieces := by
  induction pieces with
  | nil => exact absurd rfl hne
  | cons piece rest ih =>
    have hpiece := hpieces piece List.mem_cons_self
    cases rest with
    | nil => exact split_of_not_mem hpiece
    | cons next rest =>
      have htail := ih (List.cons_ne_nil next rest) fun other hother =>
        hpieces other (List.mem_cons_of_mem piece hother)
      rw [join, split_append_sep hpiece, htail]
      exact List.cons_ne_nil next rest

theorem mem_join_of_mem (sep : Char) {c : Char} {pieces : List (List Char)} {piece : List Char}
    (hpiece : piece ∈ pieces) (hc : c ∈ piece) : c ∈ join sep pieces := by
  induction pieces with
  | nil => cases hpiece
  | cons first rest ih =>
    cases rest with
    | nil => exact List.mem_singleton.mp hpiece ▸ hc
    | cons next rest =>
      rw [join, List.mem_append, List.mem_cons]
      · rcases List.mem_cons.mp hpiece with rfl | hrest
        · exact .inl hc
        · exact .inr (.inr (ih hrest))
      · exact List.cons_ne_nil next rest

theorem mem_of_mem_split {sep c : Char} {s piece : List Char} (hpiece : piece ∈ split sep s)
    (hc : c ∈ piece) : c ∈ s := by
  rw [← join_split sep s]
  exact mem_join_of_mem sep hpiece hc

theorem eq_or_mem_of_mem_join {sep c : Char} {pieces : List (List Char)}
    (hmem : c ∈ join sep pieces) : c = sep ∨ ∃ piece ∈ pieces, c ∈ piece := by
  induction pieces with
  | nil => cases hmem
  | cons piece rest ih =>
    cases rest with
    | nil => exact .inr ⟨piece, List.mem_cons_self, hmem⟩
    | cons next rest =>
      rw [join, List.mem_append, List.mem_cons] at hmem
      · rcases hmem with hpiece | hsep | htail
        · exact .inr ⟨piece, List.mem_cons_self, hpiece⟩
        · exact .inl hsep
        · rcases ih htail with hsep | ⟨other, hother, hc⟩
          · exact .inl hsep
          · exact .inr ⟨other, List.mem_cons_of_mem piece hother, hc⟩
      · exact List.cons_ne_nil next rest

theorem join_cons_cons (sep : Char) (piece next : List Char) (rest : List (List Char)) :
    join sep (piece :: next :: rest) = piece ++ sep :: join sep (next :: rest) :=
  rfl

theorem join_append_singleton (sep : Char) {pieces : List (List Char)} (hne : pieces ≠ [])
    (last : List Char) : join sep (pieces ++ [last]) = join sep pieces ++ sep :: last := by
  induction pieces with
  | nil => exact absurd rfl hne
  | cons piece rest ih =>
    cases rest with
    | nil => rfl
    | cons next rest =>
      have htail := ih (List.cons_ne_nil next rest)
      simp only [List.cons_append] at htail
      simp [join, htail]

/-- Behind some pieces every further one stands with a separator before it. -/
theorem join_append (sep : Char) {pieces : List (List Char)} (hne : pieces ≠ [])
    (more : List (List Char)) :
    join sep (pieces ++ more) = join sep pieces ++ more.flatMap (sep :: ·) := by
  induction more generalizing pieces with
  | nil => simp
  | cons next more ih =>
    have htail := ih (List.append_ne_nil_of_left_ne_nil hne [next])
    rw [List.append_cons, htail, join_append_singleton sep hne, List.flatMap_cons, List.append_assoc]

theorem join_cons (sep : Char) (piece : List Char) (pieces : List (List Char)) :
    join sep (piece :: pieces) = piece ++ pieces.flatMap (sep :: ·) :=
  join_append sep (List.cons_ne_nil piece []) pieces

/-- Where pieces are left out, their characters and a separator for each of them are. -/
theorem join_sublist_join (sep : Char) {pieces more : List (List Char)}
    (hpieces : pieces.Sublist more) : (join sep pieces).Sublist (join sep more) := by
  induction hpieces with
  | slnil => exact List.nil_sublist []
  | @cons pieces more piece _ ih =>
    refine ih.trans ?_
    cases more with
    | nil => exact List.nil_sublist _
    | cons next rest =>
      rw [join_cons_cons]
      exact (List.sublist_cons_self sep _).trans (List.sublist_append_right piece _)
  | cons_cons piece hpieces =>
    rw [join_cons, join_cons]
    exact (hpieces.flatMap _).append_left piece

theorem join_map_sublist (sep : Char) {change : List Char → List Char}
    (hchange : ∀ piece, (change piece).Sublist piece) (pieces : List (List Char)) :
    (join sep (pieces.map change)).Sublist (join sep pieces) := by
  cases pieces with
  | nil => exact List.nil_sublist []
  | cons piece rest =>
    rw [List.map_cons, join_cons, join_cons, List.flatMap_map]
    refine (hchange piece).append (List.Sublist.flatMap_right rest fun other _ => ?_)
    exact (hchange other).cons_cons sep

end DocModel.Text
