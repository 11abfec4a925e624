import DocModel.Proofs.Document.Coherence

/-!
What is left of a history. The changes that were carried out determine a document: it is the one of the
last template, with the modules that were used since and with the last data. Nothing of earlier
templates stays, and a change that failed leaves no trace. Which changes are carried out depends on
nothing but the configuration and the registry.
-/

namespace DocModel.Document

namespace Change

def source? : Change → Option String
  | setTemplate source => some source
  | _ => none

def module? : Change → Option String
  | useModule name => some name
  | _ => none

def data? : Change → Option Json
  | setData data => some data
  | _ => none

/-- Whether a change can be carried out: a document can be made of the template, or the registry has the
module. Data can always be set. -/
def isPossible (config : DocumentConfig) (registry : Registry) : Change → Bool
  | setTemplate source => (ofSource config registry source).isOk
  | useModule name => (registry.get? name).isSome
  | setData _ => true

end Change

/-- The changes that do not fail when all of them are asked for in order. -/
def carriedOut (doc : Document) : List Change → List Change
  | [] => []
  | change :: rest =>
    match doc.attempt change with
    | .ok next => change :: next.carriedOut rest
    | .error _ => doc.carriedOut rest

/-- The template that was loaded last, at first the given one. -/
def lastSource (first : String) (history : List Change) : String :=
  (history.filterMap Change.source?).getLastD first

/-- The modules that were used since the last template was loaded. -/
def usedSince (history : List Change) : List String :=
  (history.rtakeWhile (·.source?.isNone)).filterMap Change.module?

/-- The data that were set last, at first an empty object. -/
def lastData (history : List Change) : Json :=
  (history.filterMap Change.data?).getLastD (.obj [])

section CarriedOut

variable {doc : Document}

theorem step_of_error {change : Change} {error : DocumentError}
    (herror : doc.attempt change = .error error) : doc.step change = doc := by
  rw [step, herror]

theorem run_singleton_of_ok {change : Change} {next : Document}
    (hok : doc.attempt change = .ok next) : doc.run [change] = next := by
  change doc.step change = next
  rw [step, hok]

theorem run_append (earlier later : List Change) :
    doc.run (earlier ++ later) = (doc.run earlier).run later :=
  List.foldl_append

/-- A change that fails can as well be left out. -/
theorem run_of_error {earlier later : List Change} {change : Change} {error : DocumentError}
    (herror : (doc.run earlier).attempt change = .error error) :
    doc.run (earlier ++ change :: later) = doc.run (earlier ++ later) := by
  rw [run_append, run_append]
  change ((doc.run earlier).step change).run later = (doc.run earlier).run later
  rw [step_of_error herror]

/-- Asked for alone, the changes that are carried out all succeed and lead to the same document. -/
theorem foldlM_attempt_carriedOut (doc : Document) (changes : List Change) :
    (doc.carriedOut changes).foldlM attempt doc = .ok (doc.run changes) := by
  induction changes generalizing doc with
  | nil => rfl
  | cons change rest ih =>
    change _ = Except.ok ((doc.step change).run rest)
    rw [carriedOut, step]
    cases hattempt : doc.attempt change with
    | error error => exact ih doc
    | ok next =>
      simp only [List.foldlM_cons, hattempt]
      exact ih next

end CarriedOut

section LastChange

theorem getLastD_filterMap_concat {α β : Type} (f : α → Option β) (xs : List α) (x : α) (d : β) :
    ((xs ++ [x]).filterMap f).getLastD d = (f x).getD ((xs.filterMap f).getLastD d) := by
  rw [List.filterMap_append]
  cases hx : f x with
  | none => simp [hx]
  | some y => simp [hx]

variable (first : String) (history : List Change)

theorem lastSource_concat (change : Change) :
    lastSource first (history ++ [change]) = change.source?.getD (lastSource first history) :=
  getLastD_filterMap_concat _ _ _ _

theorem lastData_concat (change : Change) :
    lastData (history ++ [change]) = change.data?.getD (lastData history) :=
  getLastD_filterMap_concat _ _ _ _

theorem usedSince_setTemplate (source : String) :
    usedSince (history ++ [.setTemplate source]) = [] := by
  rw [usedSince, List.rtakeWhile_concat_neg _ _ _ (by simp [Change.source?])]
  rfl

theorem usedSince_useModule (name : String) :
    usedSince (history ++ [.useModule name]) = usedSince history ++ [name] := by
  rw [usedSince, List.rtakeWhile_concat_pos _ _ _ (by simp [Change.source?]), List.filterMap_append]
  rfl

theorem usedSince_setData (data : Json) :
    usedSince (history ++ [.setData data]) = usedSince history := by
  rw [usedSince, List.rtakeWhile_concat_pos _ _ _ (by simp [Change.source?]), List.filterMap_append]
  exact List.append_nil _

end LastChange

section Replay

variable {config : DocumentConfig} {registry : Registry} {source : String} {doc reached : Document}

theorem data_ofSource (hok : ofSource config registry source = .ok doc) : doc.data = .obj [] := by
  obtain ⟨_, _, hok⟩ := bind_eq_ok_iff.mp hok
  cases hok
  rfl

/-- A template that replaces another one leaves nothing but the data. -/
theorem setTemplate_eq_ok_iff {next : Document} :
    doc.setTemplate source = .ok next ↔
      ∃ loaded, ofSource doc.config doc.registry source = .ok loaded ∧
        next = loaded.setData doc.data := by
  rw [setTemplate, ofSource]
  cases load doc.config doc.registry source with
  | error error => simp [bind, Except.bind]
  | ok found => simp [bind, Except.bind, pure, Except.pure, setData, eq_comm (b := next)]

theorem useModule_setData (data : Json) (name : String) :
    (doc.setData data).useModule name = (doc.useModule name).map (·.setData data) := by
  rw [useModule, useModule]
  change (doc.registry.resolve name >>= _) = _
  cases doc.registry.resolve name with
  | error error => rfl
  | ok m =>
    by_cases hused : name ∈ doc.analysis.modules
    · simp [setData, hused, bind, Except.bind, pure, Except.pure, Except.map]
    · simp only [setData, hused, List.contains_iff_mem, bind, Except.bind]
      cases doc.analysis.useModule doc.config m <;> rfl

theorem useModules_concat (names : List String) (name : String) :
    doc.useModules (names ++ [name]) = doc.useModules names >>= (·.useModule name) := by
  rw [useModules, List.foldlM_append]
  exact congrArg _ (funext fun _ => bind_pure _)

/-- Changes all of which succeed lead to the document of the last template, with the modules that
were used since and the last data. -/
theorem replay (hdoc : ofSource config registry source = .ok doc) {history : List Change}
    (hhistory : history.foldlM attempt doc = .ok reached) :
    ∃ loaded enabled, ofSource config registry (lastSource source history) = .ok loaded ∧
      loaded.useModules (usedSince history) = .ok enabled ∧
      reached = enabled.setData (lastData history) := by
  -- The induction is from the end of the history, since the last change decides what still counts.
  induction history using List.reverseRecOn generalizing reached with
  | nil =>
    cases hhistory
    refine ⟨doc, doc, hdoc, rfl, ?_⟩
    change doc = { doc with data := .obj [] }
    rw [← data_ofSource hdoc]
  | append_singleton history change ih =>
    rw [List.foldlM_append] at hhistory
    obtain ⟨before, hbefore, hlast⟩ := bind_eq_ok_iff.mp hhistory
    obtain ⟨next, hattempt, hnext⟩ := bind_eq_ok_iff.mp hlast
    cases hnext
    obtain ⟨loaded, enabled, hloaded, henabled, rfl⟩ := ih hbefore
    have hcoherent := (coherent_ofSource hloaded).useModules henabled
    cases change with
    | setTemplate source =>
      obtain ⟨replaced, hreplaced, rfl⟩ := setTemplate_eq_ok_iff.mp hattempt
      refine ⟨replaced, replaced, ?_, ?_, ?_⟩
      · rw [lastSource_concat, ← hcoherent.config_eq, ← hcoherent.registry_eq]
        exact hreplaced
      · rw [usedSince_setTemplate]
        rfl
      · rw [lastData_concat]
        rfl
    | useModule name =>
      change (enabled.setData (lastData history)).useModule name = .ok reached at hattempt
      rw [useModule_setData] at hattempt
      obtain ⟨next, hname, rfl⟩ := map_eq_ok_iff.mp hattempt
      refine ⟨loaded, next, ?_, ?_, ?_⟩
      · rw [lastSource_concat]
        exact hloaded
      · rw [usedSince_useModule, useModules_concat, henabled]
        exact hname
      · rw [lastData_concat]
        rfl
    | setData data =>
      cases hattempt
      refine ⟨loaded, enabled, ?_, ?_, ?_⟩
      · rw [lastSource_concat]
        exact hloaded
      · rw [usedSince_setData]
        exact henabled
      · rw [lastData_concat]
        rfl

section Possible

variable {next : Document} {change : Change}

theorem Coherent.attempt (hdoc : Coherent config registry doc) (hok : doc.attempt change = .ok next) :
    Coherent config registry next := by
  cases change with
  | setTemplate source =>
    obtain ⟨loaded, hloaded, rfl⟩ := setTemplate_eq_ok_iff.mp hok
    rw [hdoc.config_eq, hdoc.registry_eq] at hloaded
    exact (coherent_ofSource hloaded).setData _
  | useModule name => exact hdoc.useModule hok
  | setData data =>
    cases hok
    exact hdoc.setData data

theorem Coherent.run (hdoc : Coherent config registry doc) (changes : List Change) :
    Coherent config registry (doc.run changes) :=
  run_invariant (fun _ _ _ hdoc hok => hdoc.attempt hok) changes hdoc

/-- What was changed before makes no difference to whether a change can be carried out. -/
theorem Coherent.isOk_attempt (hdoc : Coherent config registry doc) (change : Change) :
    (doc.attempt change).isOk = change.isPossible config registry := by
  cases change with
  | setTemplate source =>
    change (doc.setTemplate source).isOk = (ofSource config registry source).isOk
    rw [Document.setTemplate, ofSource, hdoc.config_eq, hdoc.registry_eq]
    cases load config registry source <;> rfl
  | useModule name =>
    change (doc.useModule name).isOk = (registry.get? name).isSome
    cases hm : registry.get? name with
    | none =>
      rw [Document.useModule, hdoc.registry_eq, Registry.resolve, hm]
      rfl
    | some m =>
      obtain ⟨next, hnext⟩ := hdoc.exists_useModule hm
      rw [hnext]
      rfl
  | setData data => rfl

theorem Coherent.carriedOut_eq_filter (hdoc : Coherent config registry doc) (changes : List Change) :
    doc.carriedOut changes = changes.filter (·.isPossible config registry) := by
  induction changes generalizing doc with
  | nil => rfl
  | cons change rest ih =>
    have hpossible := hdoc.isOk_attempt change
    rw [carriedOut, List.filter_cons, ← hpossible]
    cases hattempt : doc.attempt change with
    | error error => exact ih hdoc
    | ok next => exact congrArg (change :: ·) (ih (hdoc.attempt hattempt))

end Possible

/-- Whatever a document was asked for, it is the document of the template that was loaded last, with the
modules that were used since and with the data that were set last, at first an empty object. Its analysis
is that of this template but for the modules and what follows from them: the modules of the template come
first, and behind them those that were used since, each once. The changes that were carried out are those
that are possible, and a change that failed left no trace. The analysis is of a piece: its helper names are
those of its modules, and its trie and its model are built from its other parts. -/
theorem run_eq_replayed (hdoc : ofSource config registry source = .ok doc) (changes : List Change) :
    (∃ loaded enabled,
      ofSource config registry (lastSource source (doc.carriedOut changes)) = .ok loaded ∧
      loaded.useModules (usedSince (doc.carriedOut changes)) = .ok enabled ∧
      doc.run changes = { enabled with data := lastData (doc.carriedOut changes) } ∧
      (doc.run changes).analysis = enabled.analysis ∧
      (doc.run changes).analysis.modules =
        (loaded.analysis.modules ++ usedSince (doc.carriedOut changes)).eraseDups ∧
      SameTemplate (doc.run changes).analysis loaded.analysis) ∧
    (doc.run changes).data = lastData (doc.carriedOut changes) ∧
    doc.carriedOut changes = changes.filter (·.isPossible config registry) ∧
    (doc.carriedOut changes).foldlM attempt doc = .ok (doc.run changes) ∧
    (∀ earlier change later error, (doc.run earlier).attempt change = .error error →
      doc.run (earlier ++ change :: later) = doc.run (earlier ++ later)) ∧
    Coherent config registry (doc.run changes) ∧
    ∀ helper, helper ∈ (doc.run changes).analysis.helperNames ↔
      ∃ name ∈ (doc.run changes).analysis.modules, ∃ m,
        registry.get? name = some m ∧ helper ∈ m.helpers := by
  have hcarriedOut := foldlM_attempt_carriedOut doc changes
  have hcoherent := (coherent_ofSource hdoc).run changes
  obtain ⟨loaded, enabled, hloaded, henabled, hrun⟩ := replay hdoc hcarriedOut
  have hanalysis : (doc.run changes).analysis = enabled.analysis := by
    rw [hrun]
    rfl
  have hdata : (doc.run changes).data = lastData (doc.carriedOut changes) := by
    rw [hrun]
    rfl
  obtain ⟨hmodules, hsame⟩ := (coherent_ofSource hloaded).useModules_analysis henabled
  rw [← hanalysis] at hmodules hsame
  exact ⟨⟨loaded, enabled, hloaded, henabled, hrun, hanalysis, hmodules, hsame⟩,
    hdata, (coherent_ofSource hdoc).carriedOut_eq_filter changes, hcarriedOut,
    fun _ _ _ _ herror => run_of_error herror, hcoherent,
    Registry.mem_helperNames hcoherent.helperNames_eq⟩

/-- Of a module that is unknown, one that is known, and some data, the first leaves no trace and the others
leave what they say. -/
theorem run_eq_replayed_guestName :
    let config := { DocumentConfig.default with maxDepth := 2 }
    let changes := [.useModule "none", .useModule "put", .setData .null]
    ∃ doc loaded enabled, ofSource config .builtin "{{ guest.name }}" = .ok doc ∧
      doc.data = .obj [] ∧ doc.carriedOut changes = [.useModule "put", .setData .null] ∧
      ofSource config .builtin "{{ guest.name }}" = .ok loaded ∧
      loaded.useModules ["put"] = .ok enabled ∧
      (doc.run changes).data = .null ∧ (doc.run changes).analysis = enabled.analysis ∧
      (doc.run changes).analysis.modules = (loaded.analysis.modules ++ ["put"]).eraseDups ∧
      doc.run changes = { enabled with data := .null } := by
  intro config changes
  obtain ⟨doc, hdoc⟩ := exists_ofSource_guestName
  obtain ⟨⟨loaded, enabled, hloaded, henabled, hrun, hanalysis, hmodules, _⟩, hdata, hpossible, _⟩ :=
    run_eq_replayed hdoc changes
  have hcarriedOut : doc.carriedOut changes = [.useModule "put", .setData .null] := by
    rw [hpossible]
    rfl
  rw [hcarriedOut] at hloaded henabled hrun hmodules hdata
  exact ⟨doc, loaded, enabled, hdoc, data_ofSource hdoc, hcarriedOut, hloaded, henabled, hdata, hanalysis,
    hmodules, hrun⟩

end Replay

end DocModel.Document
