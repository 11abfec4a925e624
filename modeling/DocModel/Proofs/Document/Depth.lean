import DocModel.Proofs.Document.Run
import DocModel.Proofs.Validation.Faults

/-!
The depth bound of a document. The guards of the trie, of the model and of the validation agree: once a
trie is built, neither its model nor any validation against that model can reach the bound.
-/

namespace DocModel

theorem ofPaths_eq_error_iff {paths : List String} {maxDepth : Nat} {error : ModelError} :
    PathTrie.ofPaths paths maxDepth = .error error ↔
      error = .potentialLoop .trie maxDepth ∧
        ∃ path ∈ paths, maxDepth < (Path.segments path).length := by
  rw [PathTrie.ofPaths_eq]
  by_cases hfits : ∀ path ∈ paths, (Path.segments path).length ≤ maxDepth
  · rw [if_pos hfits]
    refine iff_of_false nofun fun ⟨_, path, hpath, hlong⟩ => ?_
    have hshort := hfits path hpath
    omega
  · rw [if_neg hfits]
    have hlong : ∃ path ∈ paths, maxDepth < (Path.segments path).length := by simpa using hfits
    obtain ⟨path, hpath, hlong⟩ := hlong
    exact ⟨fun h => ⟨(Except.error.inj h).symm, path, hpath, hlong⟩, fun ⟨h, _⟩ => h ▸ rfl⟩

namespace DocumentConfig

/-- A configuration that is read has a depth bound of at least one. -/
theorem one_le_maxDepth_of_ofText {text : String} {config : DocumentConfig}
    (hok : ofText text = .ok config) : 1 ≤ config.maxDepth := by
  rw [ofText] at hok
  split at hok
  · cases hok
  · obtain ⟨written, _, hok⟩ := bind_eq_ok_iff.mp hok
    rw [checked] at hok
    split at hok
    · next hrange =>
      cases hok
      exact hrange.1
    · cases hok

end DocumentConfig

namespace Document

/-- No validation of a document fails, whatever the data; there may be faults in the data. -/
structure NeverFails (doc : Document) : Prop where
  validate : ∀ data, ∃ errors, doc.validate data = .ok errors
  validateWith : ∀ other, ∃ errors, doc.validateWith other = .ok errors
  isValid : ∃ answer, doc.isValid = .ok answer
  isValidWith : ∀ other, ∃ answer, doc.isValidWith other = .ok answer

theorem BuiltUnder.validate_eq_ok {config : DocumentConfig} {doc : Document}
    (hdoc : BuiltUnder config doc) (hpositive : 1 ≤ config.maxDepth) (data : Json) :
    doc.validate data = .ok (Validation.faults data doc.analysis.model) := by
  have hheight := MetadataNode.height_le_of_model hdoc.model_eq
  rw [Document.validate, hdoc.config_eq, DocModel.validate_eq_ok hpositive hheight]
  rfl

theorem BuiltUnder.neverFails {config : DocumentConfig} {doc : Document}
    (hdoc : BuiltUnder config doc) (hpositive : 1 ≤ config.maxDepth) : NeverFails doc := by
  have hvalidate := hdoc.validate_eq_ok hpositive
  refine ⟨fun data => ⟨_, hvalidate data⟩, fun other => ⟨_, hvalidate _⟩, ?_, fun other => ?_⟩
  · rw [Document.isValid, hvalidate]
    exact ⟨_, rfl⟩
  · rw [Document.isValidWith, Document.validateWith, hvalidate]
    exact ⟨_, rfl⟩

end Document

/-- The guards agree. A trie is refused exactly when a path has more segments than the bound, and then
for that bound; a trie that is built is decorated under the same bound, with any fields and helpers,
and its model is validated against any data. So no document whose bound is positive, as every bound
that is read is, ever fails to validate, whatever it was asked to change before. -/
theorem depth_guards_agree {maxDepth : Nat} (hpositive : 1 ≤ maxDepth) :
    (∀ paths,
      ((∃ error, PathTrie.ofPaths paths maxDepth = .error error) ↔
        ∃ path ∈ paths, maxDepth < (Path.segments path).length) ∧
      (∀ error, PathTrie.ofPaths paths maxDepth = .error error →
        error = .potentialLoop .trie maxDepth) ∧
      ∀ trie, PathTrie.ofPaths paths maxDepth = .ok trie → ∀ fields helpers,
        ∃ model, MetadataNode.model trie fields helpers maxDepth = .ok model ∧
          ∀ data, ∃ errors, validate data model maxDepth = .ok errors) ∧
    (∀ config registry source doc, config.maxDepth = maxDepth →
      Document.ofSource config registry source = .ok doc →
        ∀ changes, (doc.run changes).NeverFails) ∧
    ∀ text config, DocumentConfig.ofText text = .ok config → 1 ≤ config.maxDepth := by
  refine ⟨fun paths => ⟨⟨?_, ?_⟩, ?_, ?_⟩, ?_, ?_⟩
  · rintro ⟨error, herror⟩
    exact (ofPaths_eq_error_iff.mp herror).2
  · intro hlong
    exact ⟨_, ofPaths_eq_error_iff.mpr ⟨rfl, hlong⟩⟩
  · intro error herror
    exact (ofPaths_eq_error_iff.mp herror).1
  · intro trie hbuilt fields helpers
    obtain ⟨model, hmodel⟩ := MetadataNode.exists_model_of_ofPaths hbuilt fields helpers
    have hheight := MetadataNode.height_le_of_model hmodel
    exact ⟨model, hmodel, fun data => ⟨_, validate_eq_ok hpositive hheight⟩⟩
  · rintro config registry source doc rfl hok changes
    exact ((Document.builtUnder_ofSource hok).run changes).neverFails hpositive
  · intro text config hok
    exact DocumentConfig.one_le_maxDepth_of_ofText hok

/-- Under a bound of two a path of three segments is refused, and a document with a path of two
validates on, also after it was asked for that longer path. -/
theorem depth_guards_agree_two :
    1 ≤ 2 ∧ PathTrie.ofPaths ["guest.name", "guest.name.first"] 2 =
        .error (.potentialLoop .trie 2) ∧
      ∃ doc, Document.ofSource { DocumentConfig.default with maxDepth := 2 } .builtin
          "{{ guest.name }}" = .ok doc ∧
        (doc.run [.useModule "put", .setTemplate "{{ guest.name.first }}",
          .setData .null]).NeverFails := by
  have hagree := depth_guards_agree (show 1 ≤ 2 by decide)
  obtain ⟨hrefused, hbound, _⟩ := hagree.1 ["guest.name", "guest.name.first"]
  obtain ⟨error, herror⟩ := hrefused.mpr ⟨"guest.name.first", by simp, by decide⟩
  obtain ⟨doc, hdoc⟩ := Document.exists_ofSource_guestName
  refine ⟨by decide, ?_, doc, hdoc, hagree.2.1 _ _ _ doc rfl hdoc _⟩
  rw [herror, hbound error herror]

end DocModel
