import DocModel.Proofs.Path.Segments
import DocModel.Proofs.Text.Replace
import DocModel.Proofs.Text.Trim
import DocModel.Template.Frame
import DocModel.Template.Lexeme
import Mathlib

/-!
What a reference finds in the data begins with what its names find. The subscripts of a reference and
whatever they stand for come behind the names that the reference begins with, so that these are the first
keys of the pointer that is followed.
-/

namespace DocModel.Template

/-- A field that is no number. -/
structure IsPlainName (name : String) : Prop where
  chars : ∀ c ∈ name.toList, isIdentChar c = true
  not_number : name.toList.all Char.isDigit = false

/-- Characters that have a meaning in references and pointers. -/
def markers : List Char := ['.', '[', ']', '"', '\'', '/', '~', '\\']

theorem not_mem_markers_of_isIdentChar {c : Char} (hc : isIdentChar c = true) : c ∉ markers := by
  intro hmem
  simp only [markers, List.mem_cons, List.not_mem_nil, or_false] at hmem
  rcases hmem with rfl | rfl | rfl | rfl | rfl | rfl | rfl | rfl <;> cases hc

theorem utf8Size_of_isIdentChar {c : Char} (hc : isIdentChar c = true) : c.utf8Size = 1 := by
  have hrange : c.toNat ≤ 127 := Nat.le_trans (Text.toNat_of_wordChar hc).2 (by decide)
  have hval : c.val ≤ 127 := UInt32.le_iff_toNat_le.mpr hrange
  exact if_pos hval

section Names

variable {name : String}

theorem IsPlainName.ne_nil (hname : IsPlainName name) : name.toList ≠ [] := by
  intro hnil
  have hnumber := hname.not_number
  rw [hnil] at hnumber
  cases hnumber

theorem IsPlainName.not_mem (hname : IsPlainName name) {c : Char} (hc : c ∈ markers) :
    c ∉ name.toList :=
  fun hmem => not_mem_markers_of_isIdentChar (hname.chars c hmem) hc

end Names

/-- A text that goes on behind some front with one of the given marks. -/
def GoesOn (marks front s : List Char) : Prop :=
  ∃ c ∈ marks, ∃ more, s = front ++ c :: more

section Pointers

variable {front : List Char}

/-- Replacing keeps a front and the mark behind it, as long as no point is replaced and a bracket only by
a point. -/
theorem GoesOn.replace {marks s : List Char} (hs : GoesOn marks front s) {c : Char}
    (mark new : List Char) (hc : c ∉ front)
    (hnew : c ∈ marks → ∃ d ∈ marks, ∃ more, new = d :: more) :
    GoesOn marks front (Text.replace (c :: mark) new s) := by
  obtain ⟨d, hd, more, rfl⟩ := hs
  rw [GoesOn, Text.replace_append hc]
  by_cases hsame : d = c
  · subst hsame
    rcases Text.replace_cons_cases d mark new more with ⟨rest, hrest⟩ | ⟨rest, hrest⟩
    · exact ⟨d, hd, rest, by rw [hrest]⟩
    · obtain ⟨e, he, tail, rfl⟩ := hnew hd
      exact ⟨e, he, tail ++ rest, by rw [hrest, List.cons_append]⟩
  · exact ⟨d, hd, _, by rw [Text.replace_cons_of_ne hsame]⟩

theorem GoesOn.substitute {s : List Char} (hs : GoesOn ['.', '['] front s) (hfront : '[' ∉ front)
    (subscript text : List Char) :
    GoesOn ['.', '['] front (Reference.substitute subscript text s) := by
  obtain ⟨c, hc, more, rfl⟩ := hs
  rw [Reference.substitute, List.cons_append, Text.cut?_append hfront]
  cases hcut : Text.cut? ('[' :: (subscript ++ [']'])) (c :: more) with
  | none => exact ⟨c, hc, more ++ '.' :: text, by simp⟩
  | some parts =>
    obtain ⟨before, behind⟩ := parts
    cases before with
    | nil => exact ⟨'.', by simp, text ++ behind, by simp⟩
    | cons d before =>
      have hwhole := Text.append_of_cut? hcut
      obtain rfl : d = c := by simpa using congrArg List.head? hwhole
      exact ⟨d, hc, before ++ '.' :: text ++ behind, by simp⟩

theorem GoesOn.replace_bracket {s : List Char} (hs : GoesOn ['.', '['] front s)
    (hfront : '[' ∉ front) : GoesOn ['.'] front (Text.replace ['['] ['.'] s) := by
  obtain ⟨c, hc, more, rfl⟩ := hs
  rw [GoesOn, Text.replace_append hfront]
  refine ⟨'.', List.mem_cons_self, Text.replace ['['] ['.'] more, ?_⟩
  rcases List.mem_cons.mp hc with rfl | hc
  · rw [Text.replace_cons_of_ne (by decide)]
  · rw [List.mem_singleton.mp hc]
    rfl

theorem GoesOn.withoutBrackets {s : List Char} (hs : GoesOn ['.', '['] front s)
    (hfront : ∀ c ∈ markers, c ≠ '.' → c ∉ front) :
    GoesOn ['.'] front (Reference.withoutBrackets s) := by
  have hslash : '/' ∉ front := hfront '/' (by decide) (by decide)
  have hopen : '[' ∉ front := hfront '[' (by decide) (by decide)
  have hclose : ']' ∉ front := hfront ']' (by decide) (by decide)
  have hdouble : '"' ∉ front := hfront '"' (by decide) (by decide)
  have hsingle : '\'' ∉ front := hfront '\'' (by decide) (by decide)
  have hpoint (text : List Char) (_ : '[' ∈ ['.', '[']) :
      ∃ d ∈ ['.', '['], ∃ more, '.' :: text = d :: more :=
    ⟨'.', by decide, text, rfl⟩
  -- The opening brackets become points in the first four steps, the other three leave points alone.
  have hslashes := hs.replace [] ['~', '1'] hslash (by simp)
  have hsingles := hslashes.replace ['\''] ['.', '"'] hopen (hpoint ['"'])
  have hdoubles := hsingles.replace ['"'] ['.', '"'] hopen (hpoint ['"'])
  have hpoints := hdoubles.replace_bracket hopen
  have hsingleEnds := hpoints.replace [']'] ['"'] hsingle (by simp)
  have hdoubleEnds := hsingleEnds.replace [']'] ['"'] hdouble (by simp)
  have hends := hdoubleEnds.replace [] [] hclose (by simp)
  exact hends

theorem GoesOn.of_foldlM {α : Type} {marks s : List Char} {f : List Char → α → Option (List Char)}
    (hstep : ∀ s x t, GoesOn marks front s → f s x = some t → GoesOn marks front t) {xs : List α}
    (hs : GoesOn marks front s) {t : List Char} (hfold : xs.foldlM f s = some t) :
    GoesOn marks front t := by
  induction xs generalizing s with
  | nil =>
    cases hfold
    exact hs
  | cons x xs ih =>
    rw [List.foldlM_cons] at hfold
    obtain ⟨next, hnext, hfold⟩ := Option.bind_eq_some_iff.mp hfold
    exact ih (hstep s x next hs hnext) hfold

/-- The pointer of a reference has the same front, with a point behind it if the reference goes on. -/
theorem pointerWithin?_eq_some {find? : List Char → Option Json} {depth : Nat}
    {rest pointer : List Char} (hfront : ∀ c ∈ markers, c ≠ '.' → c ∉ front)
    (hrest : rest = [] ∨ GoesOn ['.', '['] front (front ++ rest))
    (hpointer : Reference.pointerWithin? find? depth (front ++ rest) = some pointer) :
    pointer = front ∨ GoesOn ['.'] front pointer := by
  have hopen : '[' ∉ front := hfront '[' (by decide) (by decide)
  cases depth with
  | zero => cases hpointer
  | succ depth =>
    rw [Reference.pointerWithin?] at hpointer
    split at hpointer
    · next hbracket =>
      have hgoes : GoesOn ['.', '['] front (front ++ rest) := by
        refine hrest.resolve_left ?_
        rintro rfl
        simp [hopen] at hbracket
      obtain ⟨subscripts, _, hpointer⟩ := Option.bind_eq_some_iff.mp hpointer
      obtain ⟨plain, hplain, hpointer⟩ := Option.bind_eq_some_iff.mp hpointer
      cases hpointer
      refine .inr (GoesOn.withoutBrackets (GoesOn.of_foldlM ?_ hgoes hplain) hfront)
      intro s subscript t hs ht
      obtain ⟨inner, _, ht⟩ := Option.bind_eq_some_iff.mp ht
      obtain ⟨value, _, ht⟩ := Option.bind_eq_some_iff.mp ht
      obtain ⟨text, _, ht⟩ := Option.bind_eq_some_iff.mp ht
      cases ht
      exact hs.substitute hopen subscript text
    · next hbracket =>
      cases hpointer
      rcases hrest with rfl | ⟨c, hc, more, hmore⟩
      · exact .inl (List.append_nil front)
      · refine .inr ⟨c, ?_, more, hmore⟩
        rcases List.mem_cons.mp hc with rfl | hc
        · exact List.mem_cons_self
        · rw [hmore, List.mem_singleton.mp hc] at hbracket
          simp at hbracket

end Pointers

section Keys

open Pointer

theorem ends_none_of_isIdentChar {c : Char} (hc : isIdentChar c = true) :
    Quoting.none.ends c = false := by
  have hmarker := not_mem_markers_of_isIdentChar hc
  simp only [markers, List.mem_cons, not_or] at hmarker
  simp [Quoting.ends, hmarker]

theorem behind_none_of_isIdentChar {c : Char} (hc : isIdentChar c = true) :
    Quoting.none.behind c = Quoting.none := by
  have hmarker := not_mem_markers_of_isIdentChar hc
  simp only [markers, List.mem_cons, not_or] at hmarker
  simp [Quoting.behind, hmarker, Quoting.none]

variable {name : List Char}

theorem keyLength?_append (hname : ∀ c ∈ name, isIdentChar c = true) (rest : List Char) :
    keyLength? Quoting.none (name ++ rest) =
      (keyLength? Quoting.none rest).map fun found => (name.length + found.1, found.2) := by
  induction name with
  | nil => simp
  | cons c name ih =>
    obtain ⟨hc, hname⟩ := List.forall_mem_cons.mp hname
    rw [List.cons_append, keyLength?, ends_none_of_isIdentChar hc, behind_none_of_isIdentChar hc,
      ih hname]
    cases keyLength? Quoting.none rest with
    | none => rfl
    | some found => simp [Nat.add_right_comm]

theorem splitBytes?_append (hname : ∀ c ∈ name, isIdentChar c = true) (rest : List Char) :
    Text.splitBytes? name.length (name ++ rest) = some (name, rest) := by
  induction name with
  | nil => simp [Text.splitBytes?]
  | cons c name ih =>
    obtain ⟨hc, hname⟩ := List.forall_mem_cons.mp hname
    rw [List.length_cons, List.cons_append, Text.splitBytes?, utf8Size_of_isIdentChar hc,
      if_pos (Nat.le_add_left 1 _), Nat.add_sub_cancel, ih hname]
    rfl

theorem skipEnds_append (hname : ∀ c ∈ name, isIdentChar c = true) (hne : name ≠ [])
    (rest : List Char) : skipEnds Quoting.none (name ++ rest) = (Quoting.none, name ++ rest) := by
  obtain ⟨c, more, rfl⟩ := List.exists_cons_of_ne_nil hne
  have hends := ends_none_of_isIdentChar (hname c List.mem_cons_self)
  simp [skipEnds, hends]

theorem keysFrom_last (hname : ∀ c ∈ name, isIdentChar c = true) (hne : name ≠ []) (most : Nat) :
    keysFrom (most + 1) Quoting.none name = some [name] := by
  have hskip := skipEnds_append hname hne []
  have hlength : keyLength? Quoting.none name = none := by
    have happend := keyLength?_append hname []
    rwa [List.append_nil] at happend
  rw [List.append_nil] at hskip
  obtain ⟨c, more, rfl⟩ := List.exists_cons_of_ne_nil hne
  rw [keysFrom, hskip]
  simp only [hlength]

theorem keysFrom_cons (hname : ∀ c ∈ name, isIdentChar c = true) (hne : name ≠ []) (most : Nat)
    (rest : List Char) : keysFrom (most + 1) Quoting.none (name ++ '.' :: rest) =
      (keysFrom most Quoting.none rest).map (name :: ·) := by
  have hskip := skipEnds_append hname hne ('.' :: rest)
  have hlength : keyLength? Quoting.none (name ++ '.' :: rest) = some (name.length, Quoting.none) := by
    rw [keyLength?_append hname]
    rfl
  have htake := splitBytes?_append hname ('.' :: rest)
  have hpoint : Text.splitBytes? 1 ('.' :: rest) = some (['.'], rest) := by
    simp [Text.splitBytes?, Char.utf8Size]
  obtain ⟨c, more, rfl⟩ := List.exists_cons_of_ne_nil hne
  rw [keysFrom, hskip]
  rw [List.cons_append] at hlength htake ⊢
  simp only [hlength, htake, hpoint, Option.bind_eq_bind, Option.bind_some]
  cases keysFrom most Quoting.none rest <;> rfl

end Keys

/-- A pointer whose first keys are the given names. -/
def BeginsWith (names : List String) (pointer : List Char) : Prop :=
  pointer = (Path.ofSegments names).toList ∨ GoesOn ['.'] (Path.ofSegments names).toList pointer

section Beginning

open Pointer

variable {name : String} {names : List String} {pointer : List Char}

theorem BeginsWith.cases_cons (hbegins : BeginsWith (name :: names) pointer) :
    (names = [] ∧ pointer = name.toList) ∨
      ∃ tail, pointer = name.toList ++ '.' :: tail ∧ (names ≠ [] → BeginsWith names tail) := by
  cases names with
  | nil =>
    rw [BeginsWith, Path.ofSegments_singleton] at hbegins
    rcases hbegins with rfl | ⟨c, hc, more, rfl⟩
    · exact .inl ⟨rfl, rfl⟩
    · exact .inr ⟨more, by rw [List.mem_singleton.mp hc], fun hne => absurd rfl hne⟩
  | cons next names =>
    have hfront : (Path.ofSegments (name :: next :: names)).toList =
        name.toList ++ '.' :: (Path.ofSegments (next :: names)).toList := by
      simp [Path.ofSegments, Text.join]
    rw [BeginsWith, hfront] at hbegins
    rcases hbegins with rfl | ⟨c, hc, more, rfl⟩
    · exact .inr ⟨_, rfl, fun _ => .inl rfl⟩
    · exact .inr ⟨_, by rw [List.append_assoc, List.cons_append], fun _ => .inr ⟨c, hc, more, rfl⟩⟩

theorem exists_keysFrom_eq_append (hne : names ≠ []) (hnames : ∀ name ∈ names, IsPlainName name)
    (hbegins : BeginsWith names pointer) {most : Nat} (hmost : pointer.length ≤ most)
    {keys : List (List Char)} (hkeys : keysFrom most Quoting.none pointer = some keys) :
    ∃ more, keys = names.map String.toList ++ more := by
  induction names generalizing pointer most keys with
  | nil => exact absurd rfl hne
  | cons name names ih =>
    obtain ⟨hname, hnames⟩ := List.forall_mem_cons.mp hnames
    rcases hbegins.cases_cons with ⟨rfl, rfl⟩ | ⟨tail, rfl, htail⟩
    · have hpositive := List.length_pos_of_ne_nil hname.ne_nil
      have hne' : most ≠ 0 := Nat.ne_of_gt (Nat.lt_of_lt_of_le hpositive hmost)
      obtain ⟨most, rfl⟩ := Nat.exists_eq_succ_of_ne_zero hne'
      rw [keysFrom_last hname.chars hname.ne_nil] at hkeys
      cases hkeys
      exact ⟨[], rfl⟩
    · rw [List.length_append, List.length_cons] at hmost
      obtain ⟨most, rfl⟩ := Nat.exists_eq_succ_of_ne_zero (show most ≠ 0 by omega)
      rw [keysFrom_cons hname.chars hname.ne_nil] at hkeys
      obtain ⟨below, hbelow, rfl⟩ := Option.map_eq_some_iff.mp hkeys
      by_cases hnil : names = []
      · subst hnil
        exact ⟨below, rfl⟩
      · obtain ⟨more, rfl⟩ := ih hnil hnames (htail hnil) (by omega) hbelow
        exact ⟨more, rfl⟩

theorem IsPlainName.plainKey_toList (hname : IsPlainName name) : plainKey name.toList = name := by
  have htilde : '~' ∉ name.toList := hname.not_mem (by decide)
  have hslashes : Text.replace "~1".toList "/".toList name.toList = name.toList :=
    Text.replace_eq_self htilde
  have htildes : Text.replace "~0".toList "~".toList name.toList = name.toList :=
    Text.replace_eq_self htilde
  rw [plainKey, hslashes, htildes, String.ofList_toList]

theorem exists_keys_of_follow? {data value : Json} (hne : names ≠ [])
    (hnames : ∀ name ∈ names, IsPlainName name) (hbegins : BeginsWith names pointer)
    (hfollow : follow? data pointer = some value) :
    ∃ more, (names ++ more).foldlM child? data = some value := by
  obtain ⟨keys, hkeys, hvalue⟩ := Option.bind_eq_some_iff.mp hfollow
  obtain ⟨found, hfound, rfl⟩ := Option.map_eq_some_iff.mp hkeys
  obtain ⟨more, rfl⟩ := exists_keysFrom_eq_append hne hnames hbegins le_rfl hfound
  have hplain : (names.map String.toList).map plainKey = names := by
    rw [List.map_map]
    exact (List.map_congr_left fun name hname => (hnames name hname).plainKey_toList).trans
      (List.map_id names)
  rw [List.map_append, hplain] at hvalue
  exact ⟨_, hvalue⟩

theorem IsPlainName.splitHead_append (hname : IsPlainName name) (tail : List Char) :
    splitHead (name.toList ++ '.' :: tail) = (name, some tail) := by
  have hpoint : '.' ∉ name.toList := hname.not_mem (by decide)
  have hrun : ∀ c ∈ name.toList, decide (c ≠ '.') = true := by
    intro c hc
    exact decide_eq_true fun h => hpoint (h ▸ hc)
  have hstops : Text.Stops (fun c => decide (c ≠ '.')) ('.' :: tail) := by simp [Text.Stops]
  rw [splitHead, Text.takeWhile_append_of_stops hrun hstops, Text.dropWhile_append_of_stops hrun hstops,
    String.ofList_toList]

theorem IsPlainName.splitHead_toList (hname : IsPlainName name) :
    splitHead name.toList = (name, none) := by
  have hpoint : '.' ∉ name.toList := hname.not_mem (by decide)
  have hrun : ∀ c ∈ name.toList, decide (c ≠ '.') = true := by
    intro c hc
    exact decide_eq_true fun h => hpoint (h ▸ hc)
  rw [splitHead, List.takeWhile_eq_self_iff.mpr hrun, List.dropWhile_eq_nil_iff.mpr hrun,
    String.ofList_toList]

theorem exists_keys_of_findInData {entries : Entries Json} {value : Json} (hne : names ≠ [])
    (hnames : ∀ name ∈ names, IsPlainName name) (hbegins : BeginsWith names pointer)
    (hfind : findInData entries pointer = some value) :
    ∃ more, (names ++ more).foldlM child? (.obj entries) = some value := by
  cases names with
  | nil => exact absurd rfl hne
  | cons name names =>
    obtain ⟨hname, hnames⟩ := List.forall_mem_cons.mp hnames
    rcases hbegins.cases_cons with ⟨rfl, rfl⟩ | ⟨tail, rfl, htail⟩
    · rw [findInData, hname.splitHead_toList] at hfind
      have hfold : [name].foldlM child? (.obj entries) = some value := by
        simpa [child?] using hfind
      exact ⟨[], hfold⟩
    · rw [findInData, hname.splitHead_append] at hfind
      dsimp only at hfind
      rw [hname.plainKey_toList] at hfind
      obtain ⟨first, hfirst, hfollow⟩ := Option.bind_eq_some_iff.mp hfind
      have hdrop : (name.toList ++ '.' :: tail).drop (name.length + 1) = tail := by
        rw [← String.length_toList, List.drop_append]
        simp
      rw [hdrop] at hfollow
      have hbelow : ∃ more, (names ++ more).foldlM child? first = some value := by
        by_cases hnil : names = []
        · subst hnil
          obtain ⟨keys, _, hvalue⟩ := Option.bind_eq_some_iff.mp hfollow
          exact ⟨keys, hvalue⟩
        · exact exists_keys_of_follow? hnil hnames (htail hnil) hfollow
      obtain ⟨more, hmore⟩ := hbelow
      refine ⟨more, ?_⟩
      rw [List.cons_append, List.foldlM_cons]
      exact Option.bind_eq_some_iff.mpr ⟨first, hfirst, hmore⟩

end Beginning

theorem not_mem_ofSegments {names : List String} (hnames : ∀ name ∈ names, IsPlainName name) {c : Char}
    (hc : c ∈ markers) (hne : c ≠ '.') : c ∉ (Path.ofSegments names).toList := by
  intro hmem
  rw [Path.ofSegments, String.toList_ofList] at hmem
  obtain ⟨piece, hpiece, hmem⟩ := (Text.eq_or_mem_of_mem_join hmem).resolve_left hne
  obtain ⟨name, hname, rfl⟩ := List.mem_map.mp hpiece
  exact (hnames name hname).not_mem hc hmem

theorem find?_ofData (entries : Entries Json) (pointer : List Char) :
    (Frames.ofData entries).find? pointer = findInData entries pointer := by
  rfl

/-- The value of a reference that begins with some names is found by way of these names. -/
theorem exists_keys_of_valueOf? {entries : Entries Json} {names : List String} (hne : names ≠ [])
    (hnames : ∀ name ∈ names, IsPlainName name) {reference : String} {rest : List Char}
    (hreference : reference.toList = (Path.ofSegments names).toList ++ rest)
    (hrest : ∀ c ∈ rest.head?, c ∈ ['.', '[']) {value : Json}
    (hread : (Frames.ofData entries).valueOf? reference = some value) :
    ∃ more, (names ++ more).foldlM child? (.obj entries) = some value := by
  obtain ⟨pointer, hpointer, hfind⟩ := Option.bind_eq_some_iff.mp hread
  rw [Reference.pointer?, hreference] at hpointer
  rw [find?_ofData] at hfind
  have hfront (c : Char) (hc : c ∈ markers) (hne : c ≠ '.') : c ∉ (Path.ofSegments names).toList :=
    not_mem_ofSegments hnames hc hne
  have hgoes : rest = [] ∨ GoesOn ['.', '['] (Path.ofSegments names).toList
      ((Path.ofSegments names).toList ++ rest) := by
    cases rest with
    | nil => exact .inl rfl
    | cons c more => exact .inr ⟨c, hrest c rfl, more, rfl⟩
  exact exists_keys_of_findInData hne hnames (pointerWithin?_eq_some hfront hgoes hpointer) hfind

end DocModel.Template
