import DocModel.Proofs.Template.LookUp
import DocModel.Proofs.Text.Strip
import DocModel.Proofs.Traversal

/-!
References as templates have them, and the names they begin with. Cleaning a reference drops its numbers
and subscripts, so that these names make its clean path when nothing but numbers comes behind them.
-/

namespace DocModel

/-- The names that a reference begins with, up to its first number or subscript. -/
def Path.plainNames (reference : String) : List String :=
  ((Text.split '.' (reference.toList.takeWhile (· ≠ '['))).takeWhile isName).map String.ofList

/-- The path of the names that a reference begins with. -/
def Path.plain (reference : String) : String := ofSegments (plainNames reference)

example : Path.plain "hotel.rooms.0.beds[1].width" = "hotel.rooms" := by decide

namespace Template

/-- A text that is read as a reference, whatever stands behind it. -/
def IsReference (reference : String) : Prop :=
  ∃ depth text behind, path depth text = some (reference, behind)

/-- Characters that may stand before the first subscript of a reference. -/
def IsFront (s : List Char) : Prop := ∀ c ∈ s, isIdentChar c = true ∨ c = '.'

section Reading

open Scanner

theorem length_upTo_le (p : Scanner Unit) (n : Nat) (s : List Char) :
    (upTo p n s).2.length ≤ s.length := by
  induction n generalizing s with
  | zero => rfl
  | succ n ih =>
    rw [upTo]
    split
    · rfl
    · next rest _ =>
      split
      · next hshort =>
        have hrest := ih rest
        exact Nat.le_trans hrest (Nat.le_of_lt hshort)
      · rfl

theorem bind_eq_some_iff {α β : Type} {p : Scanner α} {f : α → Scanner β} {s rest : List Char}
    {b : β} :
    (p >>= f) s = some (b, rest) ↔ ∃ a mid, p s = some (a, mid) ∧ f a mid = some (b, rest) := by
  change (p s).bind (fun parts => f parts.1 parts.2) = some (b, rest) ↔ _
  simp [Option.bind_eq_some_iff]

theorem eq_cons_of_word {w : String} {c : Char} (hw : w.toList = [c]) {s rest : List Char} {u : Unit}
    (hword : word w s = some (u, rest)) : s = c :: rest := by
  rw [word, hw] at hword
  cases s with
  | nil => cases hword
  | cons d s =>
    by_cases hd : c = d
    · simp only [strip?, if_pos hd, Option.map_some, Option.some.injEq, Prod.mk.injEq] at hword
      rw [hd, hword.2]
    · simp [strip?, hd] at hword

theorem eq_of_fieldStep {s rest : List Char} {u : Unit} (hstep : fieldStep s = some (u, rest)) :
    ∃ field, s = '.' :: (field ++ rest) ∧ ∀ c ∈ field, isIdentChar c = true := by
  obtain ⟨_, mid, hpoint, hfield⟩ := bind_eq_some_iff.mp hstep
  obtain ⟨field, behind, hrun, hrest⟩ := bind_eq_some_iff.mp hfield
  cases hrest
  have hpoint : s = '.' :: mid := eq_cons_of_word rfl hpoint
  rw [run1] at hrun
  split at hrun
  · cases hrun
  · cases hrun
    refine ⟨mid.takeWhile isIdentChar, ?_, fun c hc => List.all_eq_true.mp List.all_takeWhile c hc⟩
    rw [List.takeWhile_append_dropWhile, hpoint]

theorem eq_of_subscriptStep {inner : Scanner Unit} {s rest : List Char} {u : Unit}
    (hstep : subscriptStep inner s = some (u, rest)) : ∃ more, s = '[' :: more := by
  obtain ⟨_, mid, hopen, _⟩ := bind_eq_some_iff.mp hstep
  exact ⟨mid, eq_cons_of_word rfl hopen⟩

/-- Steps are fields up to the end or to the first opening bracket. -/
theorem exists_front_of_upTo {inner : Scanner Unit} {n : Nat} {s : List Char} :
    ∃ front, IsFront front ∧ (s = front ++ (upTo (fieldStep <|> subscriptStep inner) n s).2 ∨
      ∃ more, s = front ++ '[' :: more) := by
  induction n generalizing s with
  | zero => exact ⟨[], nofun, .inl rfl⟩
  | succ n ih =>
    rw [upTo]
    split
    · exact ⟨[], nofun, .inl rfl⟩
    · next u rest hstep =>
      split
      · rcases eq_some_of_orElse_eq_some (show (fieldStep s <|> _) = _ from hstep) with
          hfield | hsubscript
        · obtain ⟨field, rfl, hchars⟩ := eq_of_fieldStep hfield
          obtain ⟨front, hfront, hrest⟩ := @ih rest
          refine ⟨'.' :: field ++ front, ?_, ?_⟩
          · intro c hc
            rcases List.mem_append.mp hc with hc | hc
            · rcases List.mem_cons.mp hc with rfl | hc
              · exact .inr rfl
              · exact .inl (hchars c hc)
            · exact hfront c hc
          · rcases hrest with hrest | ⟨more, hmore⟩
            · refine .inl ?_
              rw [List.append_assoc, ← hrest, List.cons_append]
            · refine .inr ⟨more, ?_⟩
              rw [List.append_assoc, ← hmore, List.cons_append]
        · -- Whatever else the steps read, the front ends at this bracket.
          obtain ⟨more, rfl⟩ := eq_of_subscriptStep hsubscript
          exact ⟨[], nofun, .inr ⟨more, rfl⟩⟩
      · exact ⟨[], nofun, .inl rfl⟩

theorem eq_of_identChars {s name rest : List Char} (hname : identChars s = some (name, rest)) :
    ∃ c more, s = c :: (more ++ rest) ∧ isIdentStart c = true ∧ ∀ d ∈ more, isIdentChar d = true := by
  obtain ⟨c, after, hc, hrun⟩ := bind_eq_some_iff.mp hname
  obtain ⟨more, last, hmore, hlast⟩ := bind_eq_some_iff.mp hrun
  cases hlast
  cases hmore
  cases s with
  | nil => cases hc
  | cons d s =>
    rw [char] at hc
    split at hc
    · next hd =>
      cases hc
      refine ⟨c, after.takeWhile isIdentChar, ?_, hd, fun d hd =>
        List.all_eq_true.mp List.all_takeWhile d hd⟩
      rw [List.takeWhile_append_dropWhile]
    · cases hc

theorem exists_front_of_pathSteps {depth : Nat} {s rest : List Char} {u : Unit}
    (hpath : pathSteps depth s = some (u, rest)) :
    ∃ c front, isIdentStart c = true ∧ IsFront front ∧ rest.length < s.length ∧
      (s = c :: (front ++ rest) ∨ ∃ more, s = c :: (front ++ '[' :: more)) := by
  cases depth with
  | zero => cases hpath
  | succ depth =>
    obtain ⟨_, mid, hname, hsteps⟩ := bind_eq_some_iff.mp hpath
    obtain ⟨_, behind, hmany, hlast⟩ := bind_eq_some_iff.mp hsteps
    cases hlast
    obtain ⟨c, name, rfl, hc, hchars⟩ := eq_of_identChars hname
    have hrest : (upTo (fieldStep <|> subscriptStep (pathSteps depth)) mid.length mid).2 = rest :=
      congrArg Prod.snd (Option.some.inj hmany)
    obtain ⟨front, hfront, hmid⟩ := @exists_front_of_upTo (pathSteps depth) mid.length mid
    have hle := length_upTo_le (fieldStep <|> subscriptStep (pathSteps depth)) mid.length mid
    rw [hrest] at hmid hle
    refine ⟨c, name ++ front, hc, ?_, ?_, ?_⟩
    · intro d hd
      rcases List.mem_append.mp hd with hd | hd
      · exact .inl (hchars d hd)
      · exact hfront d hd
    · simp only [List.length_cons, List.length_append]
      omega
    · rcases hmid with hmid | ⟨more, hmore⟩
      · exact .inl (by rw [List.append_assoc, ← hmid])
      · exact .inr ⟨more, by rw [List.append_assoc, ← hmore]⟩

theorem IsFront.ne_bracket {front : List Char} (hfront : IsFront front) {c : Char} (hc : c ∈ front) :
    decide (c ≠ '[') = true := by
  refine decide_eq_true ?_
  rintro rfl
  rcases hfront '[' hc with hchar | hpoint
  · cases hchar
  · cases hpoint

theorem takeWhile_front {c : Char} {front rest : List Char} (hc : isIdentStart c = true)
    (hfront : IsFront front) (hrest : Text.Stops (fun d => decide (d ≠ '[')) rest) :
    (c :: (front ++ rest)).takeWhile (· ≠ '[') = c :: front := by
  have hrun : ∀ d ∈ c :: front, decide (d ≠ '[') = true := by
    intro d hd
    rcases List.mem_cons.mp hd with rfl | hd
    · refine decide_eq_true ?_
      rintro rfl
      cases hc
    · exact hfront.ne_bracket hd
  exact Text.takeWhile_append_of_stops hrun hrest

/-- A reference begins with a letter or an underscore, and up to its first subscript it has nothing but
points and the characters of names. -/
theorem IsReference.exists_front {reference : String} (hreference : IsReference reference) :
    ∃ c front, isIdentStart c = true ∧ IsFront front ∧
      reference.toList.takeWhile (· ≠ '[') = c :: front := by
  obtain ⟨depth, text, behind, hpath⟩ := hreference
  obtain ⟨_, s, _, hwritten⟩ := bind_eq_some_iff.mp hpath
  obtain ⟨written, _, hmatched, hreturn⟩ := bind_eq_some_iff.mp hwritten
  cases hreturn
  rw [matched] at hmatched
  split at hmatched
  · next hsteps =>
    obtain ⟨c, front, hc, hfront, hshort, hparts⟩ := exists_front_of_pathSteps hsteps
    -- The reference is cut off the text by the number of characters that the steps have used up.
    obtain ⟨count, hcount⟩ := Nat.exists_eq_succ_of_ne_zero (Nat.sub_ne_zero_of_lt hshort)
    rw [hcount] at hmatched
    cases hmatched
    rw [String.toList_ofList]
    rcases hparts with rfl | ⟨more, rfl⟩
    · have hlength : front.length = count := by
        simp only [List.length_cons, List.length_append] at hcount
        omega
      have htaken : (c :: (front ++ behind)).take (count + 1) = c :: (front ++ []) := by
        simp [← hlength]
      refine ⟨c, front, hc, hfront, ?_⟩
      rw [htaken, takeWhile_front hc hfront (by simp [Text.Stops])]
    · refine ⟨c, front.take count, hc, fun d hd => hfront d (List.mem_of_mem_take hd), ?_⟩
      rw [← List.take_takeWhile, takeWhile_front hc hfront (by simp [Text.Stops]), List.take_succ_cons]
  · cases hmatched

end Reading

section Plain

variable {reference : String}

theorem isDigit_of_isIdentStart {c : Char} (hc : isIdentStart c = true) : c.isDigit = false := by
  have houtside : c.toNat < 48 ∨ 57 < c.toNat := by
    simp only [isIdentStart, Char.isAlpha, Char.isUpper, Char.isLower, Bool.or_eq_true,
      Bool.and_eq_true, decide_eq_true_eq, ge_iff_le, UInt32.le_iff_toNat_le] at hc
    rcases hc with (⟨hupper, _⟩ | ⟨hlower, _⟩) | rfl
    · exact .inr (Nat.lt_of_lt_of_le (by decide) hupper)
    · exact .inr (Nat.lt_of_lt_of_le (by decide) hlower)
    · exact .inr (by decide)
  by_contra hdigit
  simp only [Char.isDigit, Bool.not_eq_false, Bool.and_eq_true, decide_eq_true_eq, ge_iff_le,
    UInt32.le_iff_toNat_le] at hdigit
  obtain ⟨hlow, hhigh⟩ := hdigit
  change 48 ≤ c.toNat at hlow
  change c.toNat ≤ 57 at hhigh
  omega

theorem isIdentChar_of_isIdentStart {c : Char} (hc : isIdentStart c = true) : isIdentChar c = true := by
  simp only [isIdentStart, isIdentChar, Char.isAlphanum, Bool.or_eq_true] at hc ⊢
  tauto

theorem IsFront.isIdentChar_of_mem_split {c : Char} {front piece : List Char}
    (hc : isIdentStart c = true) (hfront : IsFront front)
    (hpiece : piece ∈ Text.split '.' (c :: front)) : ∀ d ∈ piece, isIdentChar d = true := by
  intro d hd
  have hpoint : d ≠ '.' := by
    rintro rfl
    exact Text.not_mem_of_mem_split hpiece hd
  rcases List.mem_cons.mp (Text.mem_of_mem_split hpiece hd) with rfl | hmem
  · exact isIdentChar_of_isIdentStart hc
  · exact (hfront d hmem).resolve_right hpoint

theorem IsReference.plainNames_ne_nil (hreference : IsReference reference) :
    Path.plainNames reference ≠ [] := by
  obtain ⟨c, front, hc, hfront, hstart⟩ := hreference.exists_front
  obtain ⟨pieces, hpieces⟩ := Text.exists_split_eq_cons '.' (c :: front)
  have hpoint : c ≠ '.' := by
    rintro rfl
    cases hc
  have hname : Path.isName ((c :: front).takeWhile (· ≠ '.')) = true := by
    simp [Path.isName, hpoint, isDigit_of_isIdentStart hc]
  rw [Path.plainNames, hstart, hpieces, List.takeWhile_cons_of_pos hname]
  exact List.cons_ne_nil _ _

theorem IsReference.isPlainName (hreference : IsReference reference) :
    ∀ name ∈ Path.plainNames reference, IsPlainName name := by
  obtain ⟨c, front, hc, hfront, hstart⟩ := hreference.exists_front
  intro name hname
  rw [Path.plainNames, hstart] at hname
  obtain ⟨piece, hpiece, rfl⟩ := List.mem_map.mp hname
  have hmem := (List.takeWhile_sublist _).subset hpiece
  have hisName := List.mem_takeWhile_imp hpiece
  refine ⟨?_, ?_⟩
  · rw [String.toList_ofList]
    exact hfront.isIdentChar_of_mem_split hc hmem
  · rw [Path.isName, Bool.and_eq_true, Bool.not_eq_true'] at hisName
    rw [String.toList_ofList]
    simpa using hisName.2

theorem toList_plain (reference : String) :
    (Path.plain reference).toList =
      Text.join '.' ((Text.split '.' (reference.toList.takeWhile (· ≠ '['))).takeWhile Path.isName) := by
  simp [Path.plain, Path.plainNames, Path.ofSegments, Function.comp_def]

/-- Behind the names that a reference begins with there is a point or an opening bracket, if anything. -/
theorem IsReference.exists_rest (hreference : IsReference reference) :
    ∃ rest, reference.toList = (Path.plain reference).toList ++ rest ∧
      ∀ c ∈ rest.head?, c ∈ ['.', '['] := by
  have hne := hreference.plainNames_ne_nil
  rw [Path.plainNames, ne_eq, List.map_eq_nil_iff, ← ne_eq] at hne
  have hparts : reference.toList.takeWhile (· ≠ '[') ++ reference.toList.dropWhile (· ≠ '[') =
      reference.toList := List.takeWhile_append_dropWhile
  have hstops := Text.stops_dropWhile (fun c => decide (c ≠ '[')) reference.toList
  have hjoin := Text.join_split '.' (reference.toList.takeWhile (· ≠ '['))
  rw [toList_plain]
  generalize Text.split '.' (reference.toList.takeWhile (· ≠ '[')) = pieces at *
  rw [← List.takeWhile_append_dropWhile (p := Path.isName) (l := pieces), Text.join_append '.' hne]
    at hjoin
  refine ⟨(pieces.dropWhile Path.isName).flatMap ('.' :: ·) ++
    reference.toList.dropWhile (· ≠ '['), ?_, ?_⟩
  · rw [← List.append_assoc, hjoin, hparts]
  · cases pieces.dropWhile Path.isName with
    | nil =>
      intro c hc
      have hbracket := hstops c hc
      simpa using Or.inr hbracket
    | cons piece others =>
      intro c hc
      cases hc
      exact List.mem_cons_self

end Plain

section Cleaning

/-- Numbers behind the names of a reference, as fields and as subscripts. -/
inductive IsNumbers : List Char → Prop
  | nil : IsNumbers []
  | field {digits rest : List Char} (hne : digits ≠ []) (hdigits : ∀ c ∈ digits, c.isDigit = true)
      (hrest : IsNumbers rest) : IsNumbers ('.' :: (digits ++ rest))
  | subscript {digits rest : List Char} (hne : digits ≠ [])
      (hdigits : ∀ c ∈ digits, c.isDigit = true) (hrest : IsNumbers rest) :
      IsNumbers ('[' :: (digits ++ ']' :: rest))

theorem not_mem_of_isDigit {c : Char} (hc : c.isDigit = false) {digits : List Char}
    (hdigits : ∀ d ∈ digits, d.isDigit = true) : c ∉ digits := by
  intro hmem
  rw [hdigits c hmem] at hc
  cases hc

/-- Without their subscripts, numbers are fields that are digits. -/
theorem IsNumbers.exists_strip {tail : List Char} (htail : IsNumbers tail) :
    ∃ numbers : List (List Char), (∀ number ∈ numbers, ∀ c ∈ number, c.isDigit = true) ∧
      Text.strip '[' ']' tail = numbers.flatMap ('.' :: ·) := by
  induction htail with
  | nil => exact ⟨[], nofun, by simp [Text.strip]⟩
  | @field digits rest _ hdigits _ ih =>
    obtain ⟨numbers, hnumbers, hstrip⟩ := ih
    refine ⟨digits :: numbers, List.forall_mem_cons.mpr ⟨hdigits, hnumbers⟩, ?_⟩
    rw [Text.strip_cons_of_ne (by decide), Text.strip_append (not_mem_of_isDigit (by decide) hdigits),
      hstrip, List.flatMap_cons, List.cons_append]
  | subscript _ hdigits _ ih =>
    rw [Text.strip_bracketed (not_mem_of_isDigit (by decide) hdigits)]
    exact ih

theorem IsPlainName.isName_toList {name : String} (hname : IsPlainName name) :
    Path.isName name.toList = true := by
  simp [Path.isName, hname.ne_nil, hname.not_number]

theorem isName_of_digits {number : List Char} (hnumber : ∀ c ∈ number, c.isDigit = true) :
    Path.isName number = false := by
  simp [Path.isName, List.all_eq_true.mpr hnumber]

/-- Names with nothing but numbers behind them are cleaned to the path of the names. -/
theorem clean_eq_ofSegments {names : List String} (hne : names ≠ [])
    (hnames : ∀ name ∈ names, IsPlainName name) {tail : List Char} (htail : IsNumbers tail)
    {reference : String} (hreference : reference.toList = (Path.ofSegments names).toList ++ tail) :
    Path.clean reference = Path.ofSegments names := by
  obtain ⟨numbers, hnumbers, hstrip⟩ := htail.exists_strip
  have hpieces : ∀ piece ∈ names.map String.toList, '.' ∉ piece ∧ Path.isName piece = true ∧
      Text.trim piece = piece := by
    intro piece hpiece
    obtain ⟨name, hname, rfl⟩ := List.mem_map.mp hpiece
    have hname := hnames name hname
    exact ⟨hname.not_mem (by decide), hname.isName_toList, Text.trim_of_wordChars hname.chars⟩
  have hdigits : ∀ number ∈ numbers, '.' ∉ number ∧ Path.isName number = false ∧
      Text.trim number = number := by
    intro number hnumber
    have hnumber := hnumbers number hnumber
    refine ⟨not_mem_of_isDigit (by decide) hnumber, isName_of_digits hnumber,
      Text.trim_of_wordChars fun c hc => ?_⟩
    simp [Char.isAlphanum, hnumber c hc]
  have hsegments : Text.split '.' (Path.stripSubscripts reference.toList) =
      names.map String.toList ++ numbers := by
    have hopen := not_mem_ofSegments hnames (c := '[') (by decide) (by decide)
    rw [hreference, Path.stripSubscripts, Text.strip_append hopen, hstrip, Path.ofSegments,
      String.toList_ofList, ← Text.join_append '.' (by simpa using hne)]
    refine Text.split_join (by simp [hne]) fun piece hpiece => ?_
    rcases List.mem_append.mp hpiece with hpiece | hpiece
    · exact (hpieces piece hpiece).1
    · exact (hdigits piece hpiece).1
  have htrimmed : (names.map String.toList ++ numbers).map Text.trim =
      names.map String.toList ++ numbers := by
    refine (List.map_congr_left fun piece hpiece => ?_).trans (List.map_id _)
    rcases List.mem_append.mp hpiece with hpiece | hpiece
    · exact (hpieces piece hpiece).2.2
    · exact (hdigits piece hpiece).2.2
  have hnamed : (names.map String.toList).filter Path.isName = names.map String.toList :=
    List.filter_eq_self.mpr fun piece hpiece => (hpieces piece hpiece).2.1
  have hunnamed : numbers.filter Path.isName = [] :=
    List.filter_eq_nil_iff.mpr fun number hnumber => by simp [(hdigits number hnumber).2.1]
  rw [Path.clean, Path.names, hsegments, htrimmed, List.filter_append, hnamed, hunnamed,
    List.append_nil, Path.ofSegments]

end Cleaning

end Template

end DocModel
