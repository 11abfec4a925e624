import DocModel.Proofs.Template.Occurrences

/-!
Comments behind a template. They add their own texts to its comments, and nothing to its paths.
-/

namespace DocModel.Template

/-- A comment without dashes. -/
def plainComment (text : String) : Node := .comment .none text

theorem walkNodes_plainComments (scope : Scope) (added : List String) :
    walkNodes scope (added.map plainComment) = added.map .comment := by
  induction added with
  | nil => rfl
  | cons text rest ih =>
    rw [List.map_cons, plainComment, walkNodes, walkNode, scopeBehind, ih]
    · rfl
    · rintro _ _ _ _ ⟨⟩

theorem walkNodes_append_plainComments (scope : Scope) (nodes : List Node) (added : List String) :
    walkNodes scope (nodes ++ added.map plainComment) =
      walkNodes scope nodes ++ added.map .comment := by
  rw [walkNodes_append, walkNodes_plainComments]

section Listings

variable (nodes : List Node) (added : List String)

theorem comments_append_plainComments :
    comments (nodes ++ added.map plainComment) = comments nodes ++ added := by
  rw [comments, findings, walkNodes_append_plainComments, List.filterMap_append, List.filterMap_map]
  exact congrArg _ List.filterMap_some

theorem paths_append_plainComments :
    paths (nodes ++ added.map plainComment) = paths nodes := by
  have hnone : (added.map Finding.comment).filterMap Finding.name? = [] := by
    simp [List.filterMap_eq_nil_iff, Finding.name?]
  rw [paths, findings, walkNodes_append_plainComments, List.filterMap_append, hnone,
    List.append_nil, paths, findings]

end Listings

end DocModel.Template
