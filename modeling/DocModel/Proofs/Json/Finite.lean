import DocModel.Json.Reading
import DocModel.Proofs.Json.Equality

/-!
Data that are read from text are finite. Every number that is read is, so all tokens are, and a step of
the machine that runs over the tokens leaves everything that it holds finite.
-/

namespace DocModel

namespace Double

theorem isFinite_negate (x : Double) : x.negate.isFinite = x.isFinite := by
  cases x <;> rfl

/-- A mantissa at a scale below the largest one gives a finite number. -/
theorem isFinite_ofMantissa {scale : Nat} (hscale : scale < maxScale) (negative : Bool)
    (mantissa : Nat) : (ofMantissa negative mantissa scale).isFinite = true := by
  have hscale' : ¬ maxScale < scale + 1 := by omega
  simp only [ofMantissa]
  split
  · rfl
  · rw [if_neg (Nat.lt_asymm hscale)]
    rfl

/-- An integer of 64 bits is no infinity as a double. -/
theorem isFinite_ofRatio_one {n : Nat} (hn : n ≤ Numeral.maxUnsigned) (negative : Bool) :
    (ofRatio negative n 1).isFinite = true := by
  have hunits : n <<< fraction / 1 < 2 ^ (64 + fraction) := by
    rw [Nat.div_one, Nat.shiftLeft_eq, Nat.pow_add]
    refine Nat.mul_lt_mul_of_pos_right ?_ (Nat.two_pow_pos fraction)
    exact Nat.lt_of_le_of_lt hn (by decide)
  have hlog : (n <<< fraction / 1).log2 ≤ 64 + fraction := by
    by_cases hzero : n <<< fraction / 1 = 0
    · rw [hzero]
      exact Nat.zero_le _
    · exact Nat.le_of_lt ((Nat.log2_lt hzero).mpr hunits)
  refine isFinite_ofMantissa ?_ negative _
  simp only [fraction, precision, maxScale] at hlog ⊢
  omega

end Double

namespace Json

theorem isFinite_arr_iff {items : List Json} :
    (arr items).IsFinite ↔ ∀ item ∈ items, item.IsFinite := by
  rw [IsFinite, allReals]
  induction items with
  | nil => simp [itemsAllReals]
  | cons item rest ih => simp [itemsAllReals, ih, IsFinite]

theorem isFinite_obj_iff {entries : Entries Json} :
    (obj entries).IsFinite ↔ ∀ entry ∈ entries, entry.2.IsFinite := by
  rw [IsFinite, allReals]
  induction entries with
  | nil => simp [entriesAllReals]
  | cons entry rest ih => simp [entriesAllReals, ih, IsFinite]

section Numbers

variable {negative : Bool} {digits part : List Char} {power : Int} {data : Json}

theorem isFinite_of_scaled? {significand : Nat} {x : Double}
    (hscaled : scaled? negative significand power = some x) : x.isFinite = true := by
  have hguard {magnitude : Double} (hsome : (if magnitude.isFinite then
      some (if negative then magnitude.negate else magnitude) else none) = some x) :
      x.isFinite = true := by
    split at hsome
    · next hmagnitude =>
      cases hsome
      split
      · rwa [Double.isFinite_negate]
      · exact hmagnitude
    · cases hsome
  exact hguard hscaled

theorem absorb_le {significand : Nat} (hsignificand : significand ≤ Numeral.maxUnsigned)
    (digits : List Char) : (absorb significand digits).1 ≤ Numeral.maxUnsigned := by
  induction digits generalizing significand with
  | nil => exact hsignificand
  | cons c rest ih =>
    simp only [absorb]
    split
    · next hnext => exact ih hnext
    · exact hsignificand

theorem isFinite_of_integer? (hread : integer? negative digits = some data) : data.IsFinite := by
  simp only [integer?] at hread
  split at hread
  · obtain ⟨x, hx, rfl⟩ := Option.map_eq_some_iff.mp hread
    exact isFinite_of_scaled? hx
  · split at hread
    · cases hread
      rfl
    · split at hread
      · cases hread
        rfl
      · cases hread
        have habsorb := absorb_le (Nat.zero_le Numeral.maxUnsigned) digits
        have hfinite := Double.isFinite_ofRatio_one habsorb false
        rwa [← Double.isFinite_negate] at hfinite

theorem isFinite_of_fractional? (hread : fractional? negative digits part power = some data) :
    data.IsFinite := by
  obtain ⟨x, hx, rfl⟩ := Option.map_eq_some_iff.mp hread
  exact isFinite_of_scaled? hx

theorem isFinite_of_numberOfWord? {word : List Char} (hread : numberOfWord? word = some data) :
    data.IsFinite := by
  obtain ⟨parts, _, hparts⟩ := Option.bind_eq_some_iff.mp hread
  split at hparts
  · exact isFinite_of_integer? hparts
  · exact isFinite_of_fractional? hparts

theorem isFinite_of_ofWord? {word : List Char} (hread : ofWord? word = some data) :
    data.IsFinite := by
  unfold ofWord? at hread
  split at hread
  · cases hread
    rfl
  · split at hread
    · cases hread
      rfl
    · split at hread
      · cases hread
        rfl
      · exact isFinite_of_numberOfWord? hread

end Numbers

/-- A token whose value, if it has one, is finite. -/
def Token.IsFinite : Token → Prop
  | .scalar value => value.IsFinite
  | _ => True

theorem Token.isFinite_of_markOf? {c : Char} {token : Token} (hmark : markOf? c = some token) :
    token.IsFinite := by
  unfold markOf? at hmark
  split at hmark <;> cases hmark <;> trivial

theorem isFinite_of_tokens? {s : List Char} {tokens : List Token} (hread : tokens? s = some tokens) :
    ∀ token ∈ tokens, token.IsFinite := by
  fun_induction tokens? s generalizing tokens with
  | case1 =>
    cases hread
    exact List.forall_mem_nil _
  | case2 c rest hgap ih => exact ih hread
  | case3 c rest hgap mark hmark ih =>
    obtain ⟨more, hmore, rfl⟩ := Option.map_eq_some_iff.mp hread
    exact List.forall_mem_cons.mpr ⟨Token.isFinite_of_markOf? hmark, ih hmore⟩
  | case6 _ _ _ _ _ _ _ _ _ ih =>
    obtain ⟨more, hmore, rfl⟩ := Option.map_eq_some_iff.mp hread
    exact List.forall_mem_cons.mpr ⟨rfl, ih hmore⟩
  | case8 _ _ _ _ _ _ data hdata ih =>
    obtain ⟨more, hmore, rfl⟩ := Option.map_eq_some_iff.mp hread
    exact List.forall_mem_cons.mpr ⟨isFinite_of_ofWord? hdata, ih hmore⟩
  | _ => cases hread

/-- An open array or object that holds finite data. -/
def Frame.IsFinite : Frame → Prop
  | .array items => ∀ item ∈ items, item.IsFinite
  | .object entries _ => ∀ entry ∈ entries, entry.2.IsFinite

/-- A stage that holds finite data. -/
def Stage.IsFinite : Stage → Prop
  | .value stack | .item stack => ∀ frame ∈ stack, frame.IsFinite
  | .key stack entries _ | .colon stack entries _ =>
    (∀ frame ∈ stack, frame.IsFinite) ∧ ∀ entry ∈ entries, entry.2.IsFinite
  | .after stack data => (∀ frame ∈ stack, frame.IsFinite) ∧ data.IsFinite

theorem forall_mem_insert {p : Json → Prop} {entries : Entries Json} {key : String} {data : Json}
    (hdata : p data) (hentries : ∀ entry ∈ entries, p entry.2) :
    ∀ entry ∈ entries.insert key data, p entry.2 := by
  induction entries with
  | nil => simpa [Entries.insert] using hdata
  | cons entry rest ih =>
    obtain ⟨hentry, hrest⟩ := List.forall_mem_cons.mp hentries
    rw [Entries.insert]
    split
    · exact List.forall_mem_cons.mpr ⟨hdata, hentries⟩
    · split
      · exact List.forall_mem_cons.mpr ⟨hdata, hrest⟩
      · exact List.forall_mem_cons.mpr ⟨hentry, ih hrest⟩

section Run

variable {limit : Nat} {stack : List Frame} {stage next : Stage} {token : Token}

theorem Stage.isFinite_of_begin (hstack : ∀ frame ∈ stack, frame.IsFinite) (htoken : token.IsFinite)
    (hbegin : Stage.begin limit stack token = some next) : next.IsFinite := by
  cases token with
  | scalar data =>
    cases hbegin
    exact ⟨hstack, htoken⟩
  | openArray =>
    obtain ⟨_, hnext⟩ := Option.ite_none_right_eq_some.mp hbegin
    cases hnext
    exact hstack
  | openObject =>
    obtain ⟨_, hnext⟩ := Option.ite_none_right_eq_some.mp hbegin
    cases hnext
    exact ⟨hstack, List.forall_mem_nil _⟩
  | closeArray | closeObject | comma | colon => cases hbegin

theorem Stage.isFinite_of_next (hstage : stage.IsFinite) (htoken : token.IsFinite)
    (hnext : Stage.next limit stage token = some next) : next.IsFinite := by
  -- One case for each equation of the machine, in their order.
  unfold Stage.next at hnext
  split at hnext
  · exact isFinite_of_begin hstage htoken hnext
  · cases hnext
    exact ⟨hstage, isFinite_arr_iff.mpr (List.forall_mem_nil _)⟩
  · have hempty : (Frame.array []).IsFinite := List.forall_mem_nil _
    exact isFinite_of_begin (List.forall_mem_cons.mpr ⟨hempty, hstage⟩) htoken hnext
  · cases hnext
    exact ⟨hstage.1, isFinite_obj_iff.mpr (List.forall_mem_nil _)⟩
  · cases hnext
    exact hstage
  · cases hnext
    obtain ⟨hstack, hentries⟩ := hstage
    exact List.forall_mem_cons.mpr ⟨hentries, hstack⟩
  · cases hnext
    obtain ⟨hitems, hstack⟩ := List.forall_mem_cons.mp hstage.1
    exact List.forall_mem_cons.mpr ⟨List.forall_mem_cons.mpr ⟨hstage.2, hitems⟩, hstack⟩
  · cases hnext
    obtain ⟨hitems, hstack⟩ := List.forall_mem_cons.mp hstage.1
    refine ⟨hstack, isFinite_arr_iff.mpr fun item hitem => ?_⟩
    exact List.forall_mem_cons.mpr ⟨hstage.2, hitems⟩ item (List.mem_reverse.mp hitem)
  · cases hnext
    obtain ⟨hentries, hstack⟩ := List.forall_mem_cons.mp hstage.1
    exact ⟨hstack, forall_mem_insert hstage.2 hentries⟩
  · cases hnext
    obtain ⟨hentries, hstack⟩ := List.forall_mem_cons.mp hstage.1
    exact ⟨hstack, isFinite_obj_iff.mpr (forall_mem_insert hstage.2 hentries)⟩
  · cases hnext

theorem Stage.isFinite_of_foldlM {tokens : List Token} (hstage : stage.IsFinite)
    (htokens : ∀ token ∈ tokens, token.IsFinite)
    (hrun : tokens.foldlM (Stage.next limit) stage = some next) : next.IsFinite := by
  induction tokens generalizing stage with
  | nil =>
    cases hrun
    exact hstage
  | cons token rest ih =>
    obtain ⟨htoken, hrest⟩ := List.forall_mem_cons.mp htokens
    rw [List.foldlM_cons] at hrun
    obtain ⟨middle, hmiddle, hrun⟩ := Option.bind_eq_some_iff.mp hrun
    exact ih (isFinite_of_next hstage htoken hmiddle) hrest hrun

end Run

theorem isFinite_of_read? {limit : Nat} {text : String} {data : Json}
    (hread : read? limit text = some data) : data.IsFinite := by
  obtain ⟨tokens, htokens, hread⟩ := Option.bind_eq_some_iff.mp hread
  obtain ⟨last, hlast, hread⟩ := Option.bind_eq_some_iff.mp hread
  have hstart : (Stage.value []).IsFinite := List.forall_mem_nil _
  have hfinite := Stage.isFinite_of_foldlM hstart (isFinite_of_tokens? htokens) hlast
  split at hread
  · cases hread
    exact hfinite.2
  · cases hread

end Json

end DocModel
