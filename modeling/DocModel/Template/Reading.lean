import DocModel.Error
import DocModel.Template.Definitions
import DocModel.Template.NodeReading
import DocModel.Template.Trimming

/-!
Reading whole templates. A template has to be read to its end, and its blocks and its routines have
different names. The nodes are kept as they are written; `analysed` and `printed` trim them for the
two uses that a template has.
-/

namespace DocModel.Template

/-- The nodes that the whole text writes. -/
def readNodes? (source : String) : Option (List Node) :=
  let s := source.toList
  let bound := s.length + 1
  Scanner.whole (Scanner.many (Node.read bound bound .top)) s

/-- Reads a template. -/
def parse (source : String) : Except ModelError (List Node) :=
  match readNodes? source with
  | some nodes =>
    if HasDistinctNames nodes then .ok nodes else .error .template
  | none => .error .template

/-- The nodes of a template as they are analysed: trimmed, with all comments. -/
def analysed (nodes : List Node) : List Node := tidy nodes

/-- Whether a node is a comment. -/
def Node.isComment : Node → Bool
  | .comment .. => true
  | _ => false

/-- The nodes of a template as they are rendered: trimmed, after the comments at its start have been
dropped, so that these do not trim what follows them. -/
def printed (nodes : List Node) : List Node := tidy (nodes.dropWhile Node.isComment)

end DocModel.Template
