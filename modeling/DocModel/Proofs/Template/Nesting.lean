import DocModel.Proofs.Directive.Leniency
import DocModel.Proofs.Template.Occurrences

/-!
The nodes of a template at every depth, in source order. The comments that a walk finds are those of the
comment nodes among them, in any scope: what is bound around a comment does not hide it. So it is these
nodes that decide whether the directives of a template can be read strictly.
-/

namespace DocModel.Template

/-- The text of a comment node. -/
def Node.comment? : Node → Option String
  | .comment _ s => some s
  | _ => none

mutual

/-- The nodes inside of a node, at any depth. -/
def nodesInside : Node → List Node
  | .filtered _ _ body _ | .block _ _ body _ | .routine _ _ _ body _ => nodesIn body
  | .loop _ _ _ _ body otherwise _ =>
    nodesIn body ++
      (match otherwise with
      | some nodes => nodesIn nodes
      | none => [])
  | .choice branches otherwise _ =>
    nodesInBranches branches ++
      (match otherwise with
      | some fallback => nodesInFallback fallback
      | none => [])
  | .text _ | .comment .. | .raw .. | .output .. | .assign .. | .parentBlock | .extend .. |
    .include .. | .importRoutines .. | .leave _ | .skip _ => []

/-- The nodes of a node list and the nodes inside of them. -/
def nodesIn : List Node → List Node
  | [] => []
  | node :: rest => node :: (nodesInside node ++ nodesIn rest)

def nodesInBranches : List Branch → List Node
  | [] => []
  | .mk _ _ body :: rest => nodesIn body ++ nodesInBranches rest

def nodesInFallback : Fallback → List Node
  | .mk _ body => nodesIn body

end

/-- The comments among some findings. -/
def commentsFound (findings : List Finding) : List String := findings.filterMap Finding.comment?

theorem commentsFound_append (findings more : List Finding) :
    commentsFound (findings ++ more) = commentsFound findings ++ commentsFound more :=
  List.filterMap_append

/-- The texts of the comment nodes among some nodes. -/
def commentTexts (nodes : List Node) : List String := nodes.filterMap Node.comment?

theorem commentTexts_append (nodes more : List Node) :
    commentTexts (nodes ++ more) = commentTexts nodes ++ commentTexts more :=
  List.filterMap_append

theorem commentTexts_cons_of_none {node : Node} (hnone : node.comment? = none) (rest : List Node) :
    commentTexts (node :: rest) = commentTexts rest :=
  List.filterMap_cons_none hnone

theorem mem_commentTexts {text : String} {nodes : List Node} :
    text ∈ commentTexts nodes ↔ ∃ edges, Node.comment edges text ∈ nodes := by
  rw [commentTexts, List.mem_filterMap]
  constructor
  · rintro ⟨node, hmem, htext⟩
    cases node with
    | comment edges text' =>
      cases htext
      exact ⟨edges, hmem⟩
    | _ => cases htext
  · rintro ⟨edges, hmem⟩
    exact ⟨_, hmem, rfl⟩

theorem commentsFound_flatMap_walkName (scope : Scope) (names : List String) :
    commentsFound (names.flatMap (walkName scope)) = [] := by
  rw [commentsFound, List.filterMap_eq_nil_iff]
  intro finding hfinding
  obtain ⟨name, _, hname⟩ := List.mem_flatMap.mp hfinding
  rw [walkName] at hname
  split at hname
  · cases hname
  · rw [List.mem_singleton.mp hname]
    rfl

theorem commentsFound_walkExpr (scope : Scope) (e : Expr) : commentsFound (walkExpr scope e) = [] := by
  rw [walkExpr_eq, commentsFound_flatMap_walkName]

theorem commentsFound_walkCall (scope : Scope) (call : Call) :
    commentsFound (walkCall scope call) = [] := by
  rw [walkCall_eq, commentsFound_flatMap_walkName]

theorem commentsFound_walkParams (scope : Scope) (params : List (String × Option Expr)) :
    commentsFound (walkParams scope params).1 = [] := by
  induction params generalizing scope with
  | nil => rfl
  | cons param rest ih =>
    obtain ⟨name, default⟩ := param
    cases default with
    | none => exact ih (name :: scope)
    | some e =>
      rw [walkParams, commentsFound_append, commentsFound_walkExpr, List.nil_append]
      exact ih (name :: scope)

-- The induction follows the tree, for all scopes at once: each list is walked in a scope of its own.
mutual

theorem commentsFound_walkNode (scope : Scope) : ∀ node,
    commentsFound (walkNode scope node) = commentTexts (node :: nodesInside node)
  | .output _ value | .assign _ _ _ value => by
    rw [walkNode, nodesInside, commentsFound_walkExpr]
    rfl
  | .filtered _ filter body _ => by
    rw [walkNode, nodesInside, commentsFound_append, commentsFound_walkCall, commentsFound_walkNodes]
    rfl
  | .block _ _ body _ => by
    rw [walkNode, nodesInside, commentsFound_walkNodes]
    rfl
  | .loop _ key value container body otherwise _ => by
    have hbody := commentsFound_walkNodes (scope.withLoop key value) body
    unfold walkNode nodesInside
    rw [commentsFound_append, commentsFound_append, commentsFound_walkExpr, hbody, List.nil_append,
      commentTexts_cons_of_none rfl, commentTexts_append]
    congr 1
    cases otherwise with
    | none => rfl
    | some nodes => exact commentsFound_walkNodes scope nodes
  | .choice branches otherwise _ => by
    unfold walkNode nodesInside
    rw [commentsFound_append, commentsFound_walkBranches, commentTexts_cons_of_none rfl,
      commentTexts_append]
    congr 1
    cases otherwise with
    | none => rfl
    | some fallback => exact commentsFound_walkFallback scope fallback
  | .routine _ _ params body _ => by
    rw [walkNode, nodesInside, commentsFound_append, commentsFound_walkParams, commentsFound_walkNodes]
    rfl
  | .text _ | .comment .. | .raw .. | .parentBlock | .extend .. | .include .. |
    .importRoutines .. | .leave _ | .skip _ => by
    rw [walkNode, nodesInside]
    rfl

theorem commentsFound_walkNodes (scope : Scope) : ∀ nodes,
    commentsFound (walkNodes scope nodes) = commentTexts (nodesIn nodes)
  | [] => by simp [walkNodes, nodesIn, commentsFound, commentTexts]
  | node :: rest => by
    rw [walkNodes, nodesIn, commentsFound_append, commentsFound_walkNode, commentsFound_walkNodes,
      ← commentTexts_append, List.cons_append]

theorem commentsFound_walkBranches (scope : Scope) : ∀ branches,
    commentsFound (walkBranches scope branches) = commentTexts (nodesInBranches branches)
  | [] => by simp [walkBranches, nodesInBranches, commentsFound, commentTexts]
  | .mk _ condition body :: rest => by
    rw [walkBranches, nodesInBranches, commentsFound_append, commentsFound_append,
      commentTexts_append, commentsFound_walkExpr, commentsFound_walkNodes,
      commentsFound_walkBranches, List.nil_append]

theorem commentsFound_walkFallback (scope : Scope) : ∀ fallback,
    commentsFound (walkFallback scope fallback) = commentTexts (nodesInFallback fallback)
  | .mk _ body => by rw [walkFallback, nodesInFallback, commentsFound_walkNodes]

end

/-- The comments of a template are the texts of its comment nodes, whatever stands around them. -/
theorem comments_eq_commentTexts (nodes : List Node) : comments nodes = commentTexts (nodesIn nodes) :=
  commentsFound_walkNodes [] nodes

/-- A text in a list of comments is the text of a node, and the texts before it are those of the nodes
before that one. -/
theorem commentTexts_eq_append_cons_iff {nodes : List Node} {before behind : List String}
    {text : String} :
    commentTexts nodes = before ++ text :: behind ↔
      ∃ edges nodesBefore nodesBehind,
        nodes = nodesBefore ++ Node.comment edges text :: nodesBehind ∧
          commentTexts nodesBefore = before ∧ commentTexts nodesBehind = behind := by
  constructor
  · intro htexts
    obtain ⟨first, second, rfl, hfirst, hsecond⟩ := List.filterMap_eq_append_iff.mp htexts
    obtain ⟨silent, node, rest, rfl, hsilent, hnode, hrest⟩ := List.filterMap_eq_cons_iff.mp hsecond
    cases node with
    | comment edges text' =>
      cases hnode
      refine ⟨edges, first ++ silent, rest, by simp, ?_, hrest⟩
      rw [commentTexts_append, commentTexts, hfirst, commentTexts,
        List.filterMap_eq_nil_iff.mpr hsilent, List.append_nil]
    | _ => cases hnode
  · rintro ⟨edges, nodesBefore, nodesBehind, rfl, rfl, rfl⟩
    rw [commentTexts_append]
    rfl

theorem directives_strict_eq_error_iff {nodes : List Node} {error : ModelError} :
    directives nodes true = .error error ↔
      ∃ before edges text behind, nodesIn nodes = before ++ Node.comment edges text :: behind ∧
        (∀ earlier ∈ commentTexts before, ∃ read, Directive.parse earlier true = .ok read) ∧
        Directive.parse text true = .error error := by
  rw [directives, Directive.parseAll_eq_error_iff, comments_eq_commentTexts]
  simp only [commentTexts_eq_append_cons_iff]
  constructor
  · rintro ⟨_, text, _, ⟨edges, before, behind, hnodes, rfl, _⟩, hbefore, hfails⟩
    exact ⟨before, edges, text, behind, hnodes, hbefore, hfails⟩
  · rintro ⟨before, edges, text, behind, hnodes, hbefore, hfails⟩
    exact ⟨_, text, _, ⟨edges, before, behind, hnodes, rfl, rfl⟩, hbefore, hfails⟩

/-- Strict reading of the directives of a template fails exactly if there is a comment in it, at whatever
depth, that strict reading rejects. It fails as the first of them in source order does, and a directive
is at fault. Lenient reading never fails, and where strict reading succeeds both yield the same. -/
theorem directives_lenient_follows_strict (nodes : List Node) :
    (∃ found, directives nodes false = .ok found) ∧
      ((∃ error, directives nodes true = .error error) ↔
        ∃ edges text, Node.comment edges text ∈ nodesIn nodes ∧
          ∃ error, Directive.parse text true = .error error) ∧
      (∀ error, directives nodes true = .error error ↔
        ∃ before edges text behind, nodesIn nodes = before ++ Node.comment edges text :: behind ∧
          (∀ earlier ∈ commentTexts before, ∃ read, Directive.parse earlier true = .ok read) ∧
          Directive.parse text true = .error error) ∧
      (∀ error, directives nodes true = .error error → error.isSyntax = true) ∧
      (∀ found, directives nodes true = .ok found → directives nodes false = .ok found) ∧
      ∀ text, Directive.FollowsStrict text := by
  refine ⟨Directive.exists_parseAll_lenient _, ?_, fun _ => directives_strict_eq_error_iff, ?_,
    fun _ => Directive.parseAll_lenient_of_strict, Directive.followsStrict⟩
  · simp only [directives, Directive.exists_parseAll_error_iff, comments_eq_commentTexts,
      mem_commentTexts]
    exact ⟨fun ⟨text, ⟨edges, hmem⟩, hfails⟩ => ⟨edges, text, hmem, hfails⟩,
      fun ⟨edges, text, hmem, hfails⟩ => ⟨text, ⟨edges, hmem⟩, hfails⟩⟩
  · intro error herror
    obtain ⟨_, _, _, _, _, _, hfails⟩ := directives_strict_eq_error_iff.mp herror
    exact Directive.isSyntax_of_parse_strict hfails

end DocModel.Template
