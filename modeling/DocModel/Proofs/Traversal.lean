/-!
Functions that can fail, and traversals of lists by them. A traversal that succeeds yields what a total
function yields that agrees with the failing one wherever that one succeeds; one that fails does so at the
first element that fails.
-/

namespace DocModel

variable {α β σ ε : Type}

theorem eq_ok_of_toOption_eq_some {result : Except ε α} {a : α}
    (hsome : result.toOption = some a) : result = .ok a := by
  cases result with
  | error e => cases hsome
  | ok b => exact congrArg Except.ok (Option.some.inj hsome)

theorem exists_eq_ok_of_isOk {result : Except ε α} (hok : result.isOk = true) :
    ∃ a, result = .ok a := by
  cases result with
  | error e => cases hok
  | ok a => exact ⟨a, rfl⟩

theorem eq_some_of_orElse_eq_some {first second : Option α} {a : α}
    (hsome : (first <|> second) = some a) : first = some a ∨ second = some a := by
  cases first with
  | none => exact .inr hsome
  | some b => exact .inl hsome

theorem bind_eq_ok_iff {result : Except ε α} {next : α → Except ε β} {b : β} :
    (result >>= next) = .ok b ↔ ∃ a, result = .ok a ∧ next a = .ok b := by
  cases result with
  | error e => exact iff_of_false nofun fun ⟨_, h, _⟩ => nomatch h
  | ok a => exact ⟨fun h => ⟨a, rfl, h⟩, fun ⟨_, ha, h⟩ => Except.ok.inj ha ▸ h⟩

theorem mapError_eq_ok_iff {result : Except ε α} {f : ε → σ} {a : α} :
    result.mapError f = .ok a ↔ result = .ok a := by
  cases result with
  | error e => exact iff_of_false nofun nofun
  | ok b => exact ⟨fun h => congrArg Except.ok (Except.ok.inj h), fun h => h ▸ rfl⟩

theorem map_eq_ok_iff {result : Except ε α} {f : α → β} {b : β} :
    result.map f = .ok b ↔ ∃ a, result = .ok a ∧ f a = b := by
  cases result with
  | error e => exact iff_of_false nofun fun ⟨_, h, _⟩ => nomatch h
  | ok a => exact ⟨fun h => ⟨a, rfl, Except.ok.inj h⟩, fun ⟨_, ha, h⟩ => Except.ok.inj ha ▸ h ▸ rfl⟩

theorem map_eq_error_iff {result : Except ε α} {f : α → β} {e : ε} :
    result.map f = .error e ↔ result = .error e := by
  cases result with
  | error e' => exact ⟨fun h => Except.error.inj h ▸ rfl, fun h => Except.error.inj h ▸ rfl⟩
  | ok a => exact iff_of_false nofun nofun

theorem mapM_congr {f g : α → Except ε β} {xs : List α} (hagree : ∀ x ∈ xs, f x = g x) :
    xs.mapM f = xs.mapM g := by
  induction xs with
  | nil => rfl
  | cons x rest ih =>
    have hrest := ih fun y hy => hagree y (List.mem_cons_of_mem x hy)
    rw [List.mapM_cons, List.mapM_cons, hagree x List.mem_cons_self, hrest]

theorem mapM_eq_ok_map {f : α → Except ε β} {g : α → β} {xs : List α}
    (hall : ∀ x ∈ xs, f x = .ok (g x)) : xs.mapM f = .ok (xs.map g) := by
  induction xs with
  | nil => rfl
  | cons x rest ih =>
    have hrest := ih fun y hy => hall y (List.mem_cons_of_mem x hy)
    rw [List.mapM_cons, hall x List.mem_cons_self, hrest]
    rfl

theorem mapM_cons_eq_ok_iff {f : α → Except ε β} {x : α} {rest : List α} {ys : List β} :
    (x :: rest).mapM f = .ok ys ↔
      ∃ y zs, f x = .ok y ∧ rest.mapM f = .ok zs ∧ ys = y :: zs := by
  rw [List.mapM_cons, bind_eq_ok_iff]
  simp only [bind_eq_ok_iff, pure, Except.pure, Except.ok.injEq]
  constructor
  · rintro ⟨y, hy, zs, hzs, rfl⟩
    exact ⟨y, zs, hy, hzs, rfl⟩
  · rintro ⟨y, zs, hy, hzs, rfl⟩
    exact ⟨y, hy, zs, hzs, rfl⟩

theorem eq_map_of_mapM_eq_ok {f : α → Except ε β} {g : α → β} {xs : List α} {ys : List β}
    (hagree : ∀ x ∈ xs, ∀ y, f x = .ok y → y = g x) (hok : xs.mapM f = .ok ys) :
    ys = xs.map g := by
  induction xs generalizing ys with
  | nil =>
    cases hok
    rfl
  | cons x rest ih =>
    obtain ⟨y, zs, hy, hzs, rfl⟩ := mapM_cons_eq_ok_iff.mp hok
    have hrest := ih (fun z hz => hagree z (List.mem_cons_of_mem x hz)) hzs
    rw [hagree x List.mem_cons_self y hy, hrest, List.map_cons]

theorem exists_of_mapM_eq_ok {f : α → Except ε β} {xs : List α} {ys : List β}
    (hok : xs.mapM f = .ok ys) : ∀ x ∈ xs, ∃ y, f x = .ok y := by
  induction xs generalizing ys with
  | nil => exact List.forall_mem_nil _
  | cons x rest ih =>
    obtain ⟨y, zs, hy, hzs, rfl⟩ := mapM_cons_eq_ok_iff.mp hok
    exact List.forall_mem_cons.mpr ⟨⟨y, hy⟩, ih hzs⟩

theorem mapM_cons_of_error {f : α → Except ε β} {x : α} {e : ε} (hx : f x = .error e)
    (rest : List α) : (x :: rest).mapM f = .error e := by
  rw [List.mapM_cons, hx]
  rfl

theorem mapM_cons_eq_error_of_ok {f : α → Except ε β} {x : α} {b : β} (hx : f x = .ok b) {e : ε}
    {rest : List α} : (x :: rest).mapM f = .error e ↔ rest.mapM f = .error e := by
  rw [List.mapM_cons, hx]
  cases rest.mapM f <;> simp [bind, Except.bind, pure, Except.pure]

/-- A traversal fails with the failure of the first element that fails. -/
theorem mapM_eq_error_iff {f : α → Except ε β} {e : ε} {xs : List α} :
    xs.mapM f = .error e ↔
      ∃ before x behind, xs = before ++ x :: behind ∧ (∀ y ∈ before, ∃ b, f y = .ok b) ∧
        f x = .error e := by
  constructor
  · intro hfails
    induction xs with
    | nil => cases hfails
    | cons x rest ih =>
      cases hx : f x with
      | error e' =>
        rw [mapM_cons_of_error hx] at hfails
        cases hfails
        exact ⟨[], x, rest, rfl, List.forall_mem_nil _, hx⟩
      | ok b =>
        obtain ⟨before, y, behind, rfl, hbefore, hy⟩ := ih ((mapM_cons_eq_error_of_ok hx).mp hfails)
        exact ⟨x :: before, y, behind, rfl, List.forall_mem_cons.mpr ⟨⟨b, hx⟩, hbefore⟩, hy⟩
  · rintro ⟨before, x, behind, rfl, hbefore, hx⟩
    induction before with
    | nil => exact mapM_cons_of_error hx behind
    | cons y before ih =>
      obtain ⟨⟨b, hy⟩, hbefore⟩ := List.forall_mem_cons.mp hbefore
      exact (mapM_cons_eq_error_of_ok hy).mpr (ih hbefore)

/-- If there is only one way to fail, a traversal fails in that way as soon as some element does. -/
theorem mapM_eq_error_iff_of_only {f : α → Except ε β} {only e : ε} {xs : List α}
    (honly : ∀ x ∈ xs, ∀ e, f x = .error e → e = only) :
    xs.mapM f = .error e ↔ e = only ∧ ∃ x ∈ xs, f x = .error only := by
  constructor
  · intro hfails
    obtain ⟨before, x, behind, rfl, _, hx⟩ := mapM_eq_error_iff.mp hfails
    have hmem : x ∈ before ++ x :: behind := List.mem_append_right before List.mem_cons_self
    obtain rfl := honly x hmem e hx
    exact ⟨rfl, x, hmem, hx⟩
  · rintro ⟨rfl, x, hmem, hx⟩
    cases hresult : xs.mapM f with
    | ok ys =>
      obtain ⟨y, hy⟩ := exists_of_mapM_eq_ok hresult x hmem
      rw [hx] at hy
      cases hy
    | error e =>
      obtain ⟨before, y, behind, rfl, _, hy⟩ := mapM_eq_error_iff.mp hresult
      rw [honly y (List.mem_append_right before List.mem_cons_self) e hy]

/-- A fold all of whose steps fail in the same way succeeds exactly when every element passes the
guard of the step. -/
theorem foldlM_guarded (p : α → Prop) [DecidablePred p] (f : σ → α → σ) (e : ε) (xs : List α)
    (start : σ) :
    xs.foldlM (fun state x => if p x then Except.ok (f state x) else .error e) start =
      if ∀ x ∈ xs, p x then .ok (xs.foldl f start) else .error e := by
  induction xs generalizing start with
  | nil => rfl
  | cons x rest ih =>
    rw [List.foldlM_cons]
    by_cases hx : p x
    · have hall : (∀ y ∈ x :: rest, p y) ↔ ∀ y ∈ rest, p y := by simp [hx]
      simp only [if_pos hx, hall, List.foldl_cons]
      exact ih (f start x)
    · have hall : ¬ ∀ y ∈ x :: rest, p y := fun h => hx (List.forall_mem_cons.mp h).1
      rw [if_neg hx, if_neg hall]
      rfl

/-- A traversal all of whose steps fail in the same way succeeds exactly when every element passes
the guard of the step. -/
theorem mapM_guarded (p : α → Prop) [DecidablePred p] (g : α → β) (e : ε) (xs : List α) :
    (xs.mapM fun x => if p x then Except.ok (g x) else .error e) =
      if ∀ x ∈ xs, p x then .ok (xs.map g) else .error e := by
  induction xs with
  | nil => rfl
  | cons x rest ih =>
    rw [List.mapM_cons, ih]
    by_cases hx : p x
    · by_cases hrest : ∀ y ∈ rest, p y
      · have hall : ∀ y ∈ x :: rest, p y := List.forall_mem_cons.mpr ⟨hx, hrest⟩
        rw [if_pos hx, if_pos hrest, if_pos hall]
        rfl
      · have hall : ¬ ∀ y ∈ x :: rest, p y := fun h => hrest (List.forall_mem_cons.mp h).2
        rw [if_pos hx, if_neg hrest, if_neg hall]
        rfl
    · have hall : ¬ ∀ y ∈ x :: rest, p y := fun h => hx (List.forall_mem_cons.mp h).1
      rw [if_neg hx, if_neg hall]
      rfl

end DocModel
