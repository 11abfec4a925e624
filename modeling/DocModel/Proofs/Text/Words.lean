import DocModel.Proofs.Text.Split
import DocModel.Proofs.Text.Trim
import Mathlib.Data.List.DropRight

/-!
The words of a text, which are its parts between blanks. Trimming a text that is joined from pieces without
blanks drops the empty pieces at its two ends; the empty ones among the others stay, and double the
separator.
-/

namespace DocModel.Text

/-- The words of a text: its parts between blanks. -/
def words (s : List Char) : List (List Char) :=
  (s.splitOnP isBlank).filter (· ≠ [])

/-- A piece without blanks. -/
def IsSolid (piece : List Char) : Prop := ∀ c ∈ piece, isBlank c = false

section Words

theorem words_cons_of_blank {c : Char} (hc : isBlank c = true) (rest : List Char) :
    words (c :: rest) = words rest := by
  rw [words, List.splitOnP_cons_eq_if_modifyHead, if_pos hc, words]
  simp

theorem words_eq_singleton {word : List Char} (hne : word ≠ []) (hword : IsSolid word) :
    words word = [word] := by
  rw [words, List.splitOnP_eq_singleton hword]
  simp [hne]

theorem words_append_cons {word : List Char} (hne : word ≠ []) (hword : IsSolid word) {c : Char}
    (hc : isBlank c = true) (rest : List Char) : words (word ++ c :: rest) = word :: words rest := by
  rw [words, List.splitOnP_append_cons_of_forall_mem hword c hc, words]
  simp [hne]

/-- Induction along the words of a text and the blanks between them. -/
@[elab_as_elim]
theorem words_induction {motive : List Char → Prop} (nil : motive [])
    (blank : ∀ c rest, isBlank c = true → motive rest → motive (c :: rest))
    (last : ∀ word, word ≠ [] → IsSolid word → motive word)
    (word : ∀ word c rest, word ≠ [] → IsSolid word → isBlank c = true → motive rest →
      motive (word ++ c :: rest)) (s : List Char) : motive s := by
  match s with
  | [] => exact nil
  | first :: behind =>
    cases hfirst : isBlank first with
    | true => exact blank first behind hfirst (words_induction nil blank last word behind)
    | false =>
      have hsolid : IsSolid (first :: behind.takeWhile (!isBlank ·)) := by
        refine List.forall_mem_cons.mpr ⟨hfirst, fun c hc => ?_⟩
        simpa using List.mem_takeWhile_imp hc
      have hparts := List.takeWhile_append_dropWhile (p := (!isBlank ·)) (l := behind)
      cases hrest : behind.dropWhile (!isBlank ·) with
      | nil =>
        rw [hrest, List.append_nil] at hparts
        rw [hparts] at hsolid
        exact last _ (List.cons_ne_nil first behind) hsolid
      | cons c rest =>
        have hc : isBlank c = true := by
          simpa using stops_dropWhile (!isBlank ·) behind c (by rw [hrest]; rfl)
        rw [← hparts, hrest, ← List.cons_append]
        have hrec := words_induction nil blank last word rest
        exact word _ c rest (List.cons_ne_nil first _) hsolid hc hrec
termination_by s.length
decreasing_by
  · have hlength := congrArg List.length hparts
    rw [hrest, List.length_append, List.length_cons] at hlength
    rw [List.length_cons]
    omega
  · exact Nat.lt_succ_self _

theorem isSolid_of_mem_words {s word : List Char} (hword : word ∈ words s) : IsSolid word := by
  induction s using words_induction with
  | nil => simp [words] at hword
  | blank c rest hc ih =>
    rw [words_cons_of_blank hc] at hword
    exact ih hword
  | last solid hne hsolid =>
    rw [words_eq_singleton hne hsolid, List.mem_singleton] at hword
    exact hword ▸ hsolid
  | word solid c rest hne hsolid hc ih =>
    rw [words_append_cons hne hsolid hc, List.mem_cons] at hword
    rcases hword with rfl | hword
    · exact hsolid
    · exact ih hword

/-- The words of pieces that are joined with blanks are those pieces, without the empty ones. -/
theorem words_join {pieces : List (List Char)} (hpieces : ∀ piece ∈ pieces, IsSolid piece) :
    words (join ' ' pieces) = pieces.filter (· ≠ []) := by
  induction pieces with
  | nil => rfl
  | cons piece rest ih =>
    obtain ⟨hpiece, hrest⟩ := List.forall_mem_cons.mp hpieces
    cases rest with
    | nil => rw [join, words, List.splitOnP_eq_singleton hpiece]
    | cons next rest =>
      have hwords := ih hrest
      rw [words] at hwords
      rw [join_cons_cons, words, List.splitOnP_append_cons_of_forall_mem hpiece ' ' (by decide)]
      cases piece with
      | nil => simpa using hwords
      | cons c piece => simpa using hwords

end Words

section Join

variable {pieces : List (List Char)}

theorem filter_join {sep : Char} {test : Char → Bool} (hsep : test sep = true) :
    (join sep pieces).filter test = join sep (pieces.map (List.filter test)) := by
  induction pieces with
  | nil => rfl
  | cons piece rest ih =>
    cases rest with
    | nil => rfl
    | cons next rest => simp_all [join]

theorem reverse_join (sep : Char) :
    (join sep pieces).reverse = join sep (pieces.reverse.map List.reverse) := by
  induction pieces with
  | nil => rfl
  | cons piece rest ih =>
    cases rest with
    | nil => rfl
    | cons next rest =>
      have hne : (next :: rest).reverse.map List.reverse ≠ [] := by simp
      rw [join_cons_cons, List.reverse_append, List.reverse_cons, ih, List.reverse_cons (a := piece),
        List.map_append, List.map_singleton, join_append_singleton sep hne, List.append_assoc]
      rfl

/-- The pieces without the empty ones at the two ends. -/
def trimPieces (pieces : List (List Char)) : List (List Char) :=
  (pieces.dropWhile List.isEmpty).rdropWhile List.isEmpty

theorem trimStart_join (hpieces : ∀ piece ∈ pieces, IsSolid piece) :
    trimStart (join ' ' pieces) = join ' ' (pieces.dropWhile List.isEmpty) := by
  induction pieces with
  | nil => rfl
  | cons piece rest ih =>
    obtain ⟨hpiece, hrest⟩ := List.forall_mem_cons.mp hpieces
    cases piece with
    | nil =>
      rw [List.dropWhile_cons_of_pos rfl, ← ih hrest]
      cases rest with
      | nil => rfl
      | cons next rest =>
        rw [join_cons_cons, List.nil_append, trimStart, List.dropWhile_cons_of_pos (by decide),
          ← trimStart]
    | cons c piece =>
      rw [List.dropWhile_cons_of_neg (by simp)]
      refine trimStart_eq_self fun d hd => ?_
      rw [join_cons, List.cons_append, List.head?_cons, Option.mem_some_iff] at hd
      exact hd ▸ hpiece c List.mem_cons_self

theorem trimEnd_join (hpieces : ∀ piece ∈ pieces, IsSolid piece) :
    trimEnd (join ' ' pieces) = join ' ' (pieces.rdropWhile List.isEmpty) := by
  have hreversed : ∀ piece ∈ pieces.reverse.map List.reverse, IsSolid piece := by
    intro piece hpiece
    obtain ⟨other, hother, rfl⟩ := List.mem_map.mp hpiece
    exact fun c hc => hpieces other (List.mem_reverse.mp hother) c (List.mem_reverse.mp hc)
  have hempty : List.isEmpty ∘ List.reverse = (List.isEmpty : List Char → Bool) :=
    funext fun piece => List.isEmpty_reverse
  rw [trimEnd, ← trimStart, reverse_join, trimStart_join hreversed, List.dropWhile_map, hempty,
    reverse_join, ← List.map_reverse, List.map_map, List.reverse_involutive.comp_self, List.map_id,
    List.rdropWhile]

theorem trim_join (hpieces : ∀ piece ∈ pieces, IsSolid piece) :
    trim (join ' ' pieces) = join ' ' (trimPieces pieces) := by
  rw [trim, trimStart_join hpieces, trimEnd_join, trimPieces]
  exact fun piece hpiece => hpieces piece ((List.dropWhile_sublist _).subset hpiece)

end Join

section Trimmed

variable {pieces : List (List Char)}

/-- Pieces without empty ones at the two ends. -/
structure IsTrimmed (pieces : List (List Char)) : Prop where
  first : ∀ piece ∈ pieces.head?, piece ≠ []
  last : ∀ piece ∈ pieces.getLast?, piece ≠ []

/-- Trimming takes pieces from the two ends, and nothing else. -/
theorem exists_trimPieces (pieces : List (List Char)) :
    ∃ front back, pieces = front ++ trimPieces pieces ++ back := by
  obtain ⟨back, hback⟩ := List.rdropWhile_prefix List.isEmpty (l := pieces.dropWhile List.isEmpty)
  refine ⟨pieces.takeWhile List.isEmpty, back, ?_⟩
  rw [trimPieces, List.append_assoc, hback, List.takeWhile_append_dropWhile]

theorem isTrimmed_trimPieces (pieces : List (List Char)) : IsTrimmed (trimPieces pieces) where
  first := by
    intro piece hpiece
    obtain ⟨back, hback⟩ := List.rdropWhile_prefix List.isEmpty (l := pieces.dropWhile List.isEmpty)
    have hfull := List.head?_dropWhile_not List.isEmpty pieces
    rw [← hback, ← trimPieces, List.head?_append, Option.mem_def.mp hpiece] at hfull
    simpa using hfull
  last := by
    intro piece hpiece
    obtain ⟨hne, rfl⟩ := List.mem_getLast?_eq_getLast hpiece
    have hfull := List.rdropWhile_last_not List.isEmpty (pieces.dropWhile List.isEmpty) hne
    rwa [List.isEmpty_iff] at hfull

theorem trimPieces_eq_self (hpieces : ∀ piece ∈ pieces, piece ≠ []) : trimPieces pieces = pieces := by
  have hfull {other : List (List Char)} (hother : ∀ piece ∈ other, piece ≠ []) :
      other.dropWhile List.isEmpty = other := by
    cases other with
    | nil => rfl
    | cons first rest =>
      have hfirst := hother first List.mem_cons_self
      exact List.dropWhile_cons_of_neg (by simpa using hfirst)
  have hreversed : ∀ piece ∈ pieces.reverse, piece ≠ [] := fun piece hpiece =>
    hpieces piece (List.mem_reverse.mp hpiece)
  rw [trimPieces, hfull hpieces, List.rdropWhile, hfull hreversed, List.reverse_reverse]

theorem dropWhile_isEmpty_append {front : List (List Char)} (hfront : ∃ piece ∈ front, piece ≠ [])
    (back : List (List Char)) :
    (front ++ back).dropWhile List.isEmpty = front.dropWhile List.isEmpty ++ back := by
  have hsome : (front.dropWhile List.isEmpty).isEmpty = false := by simpa using hfront
  rw [List.dropWhile_append, hsome, if_neg Bool.false_ne_true]

theorem rdropWhile_isEmpty_append {back : List (List Char)} (hback : ∃ piece ∈ back, piece ≠ [])
    (front : List (List Char)) :
    (front ++ back).rdropWhile List.isEmpty = front ++ back.rdropWhile List.isEmpty := by
  have hreversed : ∃ piece ∈ back.reverse, piece ≠ [] := by simpa using hback
  rw [List.rdropWhile, List.reverse_append, dropWhile_isEmpty_append hreversed, List.reverse_append,
    List.reverse_reverse, List.rdropWhile]

/-- An empty piece stays exactly if there are pieces before and behind it that are not empty. -/
theorem nil_mem_trimPieces_iff : [] ∈ trimPieces pieces ↔
    ∃ front back, pieces = front ++ [] :: back ∧ (∃ piece ∈ front, piece ≠ []) ∧
      ∃ piece ∈ back, piece ≠ [] := by
  constructor
  · intro hnil
    have htrimmed := isTrimmed_trimPieces pieces
    obtain ⟨front, back, hparts⟩ := exists_trimPieces pieces
    obtain ⟨before, behind, hmiddle⟩ := List.append_of_mem hnil
    rw [hmiddle] at hparts htrimmed
    refine ⟨front ++ before, behind ++ back, by simpa using hparts, ?_, ?_⟩
    · cases before with
      | nil => exact absurd rfl (htrimmed.first [] rfl)
      | cons first before => exact ⟨first, by simp, htrimmed.first first rfl⟩
    · cases hlast : behind.getLast? with
      | none =>
        rw [List.getLast?_eq_none_iff.mp hlast] at htrimmed
        exact absurd rfl (htrimmed.last [] (by simp))
      | some last =>
        have hmem := List.mem_of_getLast? hlast
        exact ⟨last, by simp [hmem], htrimmed.last last (by simp [List.getLast?_cons, hlast])⟩
  · rintro ⟨front, back, rfl, hfront, piece, hpiece, hne⟩
    have hback : ∃ other ∈ [] :: back, other ≠ [] := ⟨piece, List.mem_cons_of_mem [] hpiece, hne⟩
    rw [trimPieces, dropWhile_isEmpty_append hfront, rdropWhile_isEmpty_append hback,
      ← List.singleton_append, rdropWhile_isEmpty_append ⟨piece, hpiece, hne⟩]
    simp

/-- A text without two spaces in a row. -/
def IsSingleSpaced (s : List Char) : Prop := ∀ front back, s ≠ front ++ ' ' :: ' ' :: back

theorem isSingleSpaced_join_iff (htrimmed : IsTrimmed pieces)
    (hpieces : ∀ piece ∈ pieces, IsSolid piece) : IsSingleSpaced (join ' ' pieces) ↔ [] ∉ pieces := by
  constructor
  · intro hsingle hnil
    obtain ⟨front, back, hparts⟩ := List.append_of_mem hnil
    cases front with
    | nil => exact htrimmed.first [] (by rw [hparts]; rfl) rfl
    | cons first front =>
      cases back with
      | nil => exact htrimmed.last [] (by simp [hparts, List.getLast?_cons]) rfl
      | cons next back =>
        have hjoin := join_append ' ' (List.cons_ne_nil first front) ([] :: next :: back)
        rw [← hparts] at hjoin
        exact hsingle _ _ hjoin
  · intro hnil front back hjoin
    have hsplit := split_append_cons ' ' front (' ' :: back)
    rw [← hjoin] at hsplit
    cases pieces with
    | nil => simp [join] at hjoin
    | cons first rest =>
      rw [split_join (List.cons_ne_nil first rest) fun piece hpiece hmem => ?_] at hsplit
      · rw [hsplit] at hnil
        simp [split] at hnil
      · have := hpieces piece hpiece ' ' hmem
        cases this

end Trimmed

end DocModel.Text
