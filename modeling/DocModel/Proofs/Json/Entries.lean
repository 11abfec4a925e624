import DocModel.Json.Value
import Mathlib.Data.String.Basic

/-!
Look-ups in the entries of objects. Entries put over others hide those with the same keys and no others, and
an entry that is left out hides nothing else. Entries in the order of their keys are determined by what is
found in them.
-/

namespace DocModel.Entries

variable {α : Type}

theorem get?_cons_self (key : String) (value : α) (rest : Entries α) :
    get? ((key, value) :: rest) key = some value := by
  simp [get?]

theorem get?_cons_of_ne {key other : String} (hne : other ≠ key) (value : α) (rest : Entries α) :
    get? ((key, value) :: rest) other = get? rest other := by
  have hkey : (key == other) = false := by simpa using hne.symm
  simp [get?, hkey]

theorem get?_eq_none {key : String} {entries : Entries α} (hkey : key ∉ entries.map (·.1)) :
    get? entries key = none := by
  induction entries with
  | nil => rfl
  | cons entry rest ih =>
    rw [List.map_cons, List.mem_cons, not_or] at hkey
    rw [get?_cons_of_ne hkey.1, ih hkey.2]

/-- Where entries with different keys are put over others, theirs are found first. -/
theorem get?_overlay (base : Entries α) {other : Entries α} (hother : (other.map (·.1)).Nodup)
    (key : String) : (overlay base other).get? key = (other.get? key).or (base.get? key) := by
  induction other generalizing base with
  | nil => rfl
  | cons entry rest ih =>
    obtain ⟨name, value⟩ := entry
    obtain ⟨hname, hrest⟩ := List.nodup_cons.mp hother
    change (overlay (base.insert name value) rest).get? key = _
    rw [ih _ hrest]
    by_cases hkey : key = name
    · subst hkey
      rw [get?_eq_none hname, get?_insert_self, get?_cons_self]
      rfl
    · rw [get?_insert_of_ne hkey, get?_cons_of_ne hkey]

/-- The entries without the one of a key. -/
def erase (key : String) (entries : Entries α) : Entries α :=
  entries.filter (·.1 != key)

theorem get?_erase_of_ne {key other : String} (hne : other ≠ key) (entries : Entries α) :
    (entries.erase key).get? other = entries.get? other := by
  induction entries with
  | nil => rfl
  | cons entry rest ih =>
    obtain ⟨name, value⟩ := entry
    rw [erase, List.filter_cons, ← erase]
    by_cases hname : name = key
    · rw [if_neg (by simpa using hname), ih, get?_cons_of_ne (hname ▸ hne)]
    · rw [if_pos (by simpa using hname)]
      by_cases hother : other = name
      · rw [hother, get?_cons_self, get?_cons_self]
      · rw [get?_cons_of_ne hother, get?_cons_of_ne hother, ih]

section Ordered

/-- The keys ascend, so that each stands there once. -/
def IsOrdered (entries : Entries α) : Prop := entries.Pairwise (·.1 < ·.1)

theorem get?_eq_none_of_lt {key : String} {entries : Entries α}
    (hkeys : ∀ entry ∈ entries, key < entry.1) : get? entries key = none := by
  refine get?_eq_none fun hmem => ?_
  obtain ⟨entry, hentry, rfl⟩ := List.mem_map.mp hmem
  exact lt_irrefl _ (hkeys entry hentry)

/-- A key before the first one is not there. -/
theorem get?_cons_eq_none_of_lt {key first : String} {value : α} {rest : Entries α}
    (hordered : IsOrdered ((first, value) :: rest)) (hlt : key < first) :
    get? ((first, value) :: rest) key = none := by
  have hrest := (List.pairwise_cons.mp hordered).1
  exact get?_eq_none_of_lt (List.forall_mem_cons.mpr ⟨hlt, fun entry he => hlt.trans (hrest entry he)⟩)

variable {β : Type} {r : α → β → Prop} {entries rest : Entries α} {others more : Entries β}

/-- Behind two entries with one key, the rest can be compared by what is found in it. -/
theorem forall_get?_cons_iff {key : String} {a : α} {b : β}
    (hentries : IsOrdered ((key, a) :: rest)) (hothers : IsOrdered ((key, b) :: more)) :
    (∀ k, Option.Rel r (get? ((key, a) :: rest) k) (get? ((key, b) :: more) k)) ↔
      r a b ∧ ∀ k, Option.Rel r (get? rest k) (get? more k) := by
  have hrest := get?_eq_none_of_lt (List.pairwise_cons.mp hentries).1
  have hmore := get?_eq_none_of_lt (List.pairwise_cons.mp hothers).1
  constructor
  · intro hget
    have hkey := hget key
    rw [get?_cons_self, get?_cons_self] at hkey
    refine ⟨by simpa using hkey, fun k => ?_⟩
    by_cases hk : k = key
    · rw [hk, hrest, hmore]
      exact .none
    · have hother := hget k
      rwa [get?_cons_of_ne hk, get?_cons_of_ne hk] at hother
  · rintro ⟨hab, hget⟩ k
    by_cases hk : k = key
    · rw [hk, get?_cons_self, get?_cons_self]
      exact .some hab
    · rw [get?_cons_of_ne hk, get?_cons_of_ne hk]
      exact hget k

/-- In two ordered lists of entries the same keys lead to related values exactly if the entries with these
keys and values stand side by side. -/
theorem forall_get?_iff_forall₂ (hentries : IsOrdered entries) (hothers : IsOrdered others) :
    (∀ key, Option.Rel r (entries.get? key) (others.get? key)) ↔
      List.Forall₂ (fun x y => x.1 = y.1 ∧ r x.2 y.2) entries others := by
  induction entries generalizing others with
  | nil =>
    cases others with
    | nil => simp [get?_nil]
    | cons other more =>
      refine iff_of_false (fun hget => ?_) nofun
      have hother := hget other.1
      rw [get?_nil, get?_cons_self] at hother
      cases hother
  | cons entry rest ih =>
    obtain ⟨key, a⟩ := entry
    cases others with
    | nil =>
      refine iff_of_false (fun hget => ?_) nofun
      have hkey := hget key
      rw [get?_nil, get?_cons_self] at hkey
      cases hkey
    | cons other more =>
      obtain ⟨key', b⟩ := other
      rw [List.forall₂_cons, ← ih hentries.of_cons hothers.of_cons]
      rcases lt_trichotomy key key' with hlt | rfl | hlt
      · -- The lesser of the two first keys is missing on the other side.
        refine iff_of_false (fun hget => ?_) fun h => hlt.ne h.1.1
        have hkey := hget key
        rw [get?_cons_self, get?_cons_eq_none_of_lt hothers hlt] at hkey
        cases hkey
      · rw [forall_get?_cons_iff hentries hothers]
        simp
      · refine iff_of_false (fun hget => ?_) fun h => hlt.ne' h.1.1
        have hkey := hget key'
        rw [get?_cons_self, get?_cons_eq_none_of_lt hentries hlt] at hkey
        cases hkey

end Ordered

end DocModel.Entries
