import DocModel.Text.Blank
import DocModel.Template.Tree

/-!
Whitespace control. A dash at the start of a tag trims the text before the tag, and a dash at its
end the text behind it; at the edges of a body the dashes of the tags around the body count. A text
of which nothing is left is dropped.
-/

namespace DocModel.Template

/-- Whether a node trims the text before it. -/
def Node.trimsBefore : Node → Bool
  | .text _ | .parentBlock => false
  | .comment edges _ | .output edges _ | .assign edges _ _ _ | .extend edges _ |
    .include edges _ _ | .importRoutines edges _ _ | .leave edges | .skip edges => edges.before
  | .raw opening _ _ | .filtered opening _ _ _ | .block opening _ _ _ |
    .loop opening _ _ _ _ _ _ | .routine opening _ _ _ _ => opening.before
  | .choice (.mk edges _ _ :: _) _ _ => edges.before
  | .choice [] _ _ => false

/-- Whether the text behind a node is trimmed; `already` says whether it would be trimmed without
the node. The call of the parent block leaves that as it is. -/
def Node.trimsBehind (already : Bool) : Node → Bool
  | .text _ => false
  | .parentBlock => already
  | .comment edges _ | .output edges _ | .assign edges _ _ _ | .extend edges _ |
    .include edges _ _ | .importRoutines edges _ _ | .leave edges | .skip edges => edges.behind
  | .raw _ _ closing | .filtered _ _ _ closing | .block _ _ _ closing |
    .loop _ _ _ _ _ _ closing | .routine _ _ _ _ closing | .choice _ _ closing => closing.behind

/-- A text trimmed at the chosen ends. -/
def trimEnds (start ending : Bool) (text : String) : String :=
  let cs := text.toList
  let cs := if start then Text.trimStart cs else cs
  String.ofList (if ending then Text.trimEnd cs else cs)

/-- A text node trimmed at the chosen ends, or nothing when nothing is left of it. -/
def trimText (start ending : Bool) (text : String) : List Node :=
  let trimmed := trimEnds start ending text
  if trimmed = "" ∧ (start ∨ ending) then [] else [.text trimmed]

/-- Whether a text is trimmed at its end by the node behind it, or, as the last of its body, by the
tag that closes the body. -/
def trimmedBy (ending : Bool) : List Node → Bool
  | [] => ending
  | next :: _ => next.trimsBefore

/-- Whether the body of a branch is trimmed at its end by the tag behind it. -/
def endOfBranch (last : Bool) : List Branch → Bool
  | [] => last
  | .mk edges _ _ :: _ => edges.before

mutual

/-- A node with its bodies trimmed. -/
def tidyNode : Node → Node
  | .raw opening text closing => .raw opening (trimEnds opening.behind closing.before text) closing
  | .filtered opening filter body closing =>
    .filtered opening filter (tidyNodes opening.behind closing.before body) closing
  | .block opening name body closing =>
    .block opening name (tidyNodes opening.behind closing.before body) closing
  | .loop opening key value container body otherwise closing =>
    .loop opening key value container (tidyNodes opening.behind closing.before body) otherwise
      closing
  | .choice branches none closing =>
    .choice (tidyBranches closing.before branches) none closing
  | .choice branches (some (.mk edges body)) closing =>
    .choice (tidyBranches edges.before branches)
      (some (.mk edges (tidyNodes edges.behind closing.before body))) closing
  | .routine opening name params body closing =>
    .routine opening name params (tidyNodes opening.behind closing.before body) closing
  | node => node

/-- A node list trimmed; `start` and `ending` say whether its first and its last text are trimmed at
the edge of the list. -/
def tidyNodes (start ending : Bool) : List Node → List Node
  | [] => []
  | .text text :: rest =>
    trimText start (trimmedBy ending rest) text ++ tidyNodes false ending rest
  | node :: rest => tidyNode node :: tidyNodes (node.trimsBehind start) ending rest

/-- Branches with their bodies trimmed; `last` says whether the tag behind them trims. -/
def tidyBranches (last : Bool) : List Branch → List Branch
  | [] => []
  | .mk edges condition body :: rest =>
    .mk edges condition (tidyNodes edges.behind (endOfBranch last rest) body) ::
      tidyBranches last rest

end

/-- A whole template trimmed. -/
def tidy (nodes : List Node) : List Node :=
  tidyNodes false false nodes

end DocModel.Template
