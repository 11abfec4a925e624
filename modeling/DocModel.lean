import DocModel.Folder
import DocModel.Json.Audit
import DocModel.Proofs.Path.Segments
import DocModel.Proofs.Traversal
import DocModel.Proofs.Trie.Height
import DocModel.Proofs.Metadata.Decoration
import DocModel.Proofs.Validation.Faults
import DocModel.Proofs.Metadata.Position
import DocModel.Proofs.Validation.Preorder
import DocModel.Proofs.Metadata.Inference
import DocModel.Proofs.Validation.Requiredness
import DocModel.Proofs.Document.Analysis
import DocModel.Proofs.Document.Run
import DocModel.Proofs.Document.Depth
import DocModel.Proofs.Metadata.Coverage
import DocModel.Proofs.Sorting
import DocModel.Proofs.Template.Occurrences
import DocModel.Proofs.Text.Trim
import DocModel.Proofs.Directive.RoundTrip
import DocModel.Proofs.HelperModule.Union
import DocModel.Proofs.Document.Coherence
import DocModel.Proofs.Document.History
import DocModel.Proofs.Metadata.Pruning
import DocModel.Proofs.Template.Comments
import DocModel.Proofs.Directive.Use
import DocModel.Proofs.Document.Enabling
import DocModel.Proofs.Trie.Listing
import DocModel.Proofs.Metadata.Independence
import DocModel.Proofs.Directive.Grammar
import DocModel.Proofs.Template.LookUp
import DocModel.Proofs.Template.Reference
import DocModel.Proofs.Validation.Presence
import DocModel.Proofs.Metadata.Cut
import DocModel.Proofs.Json.Entries
import DocModel.Proofs.Document.Overlay
import DocModel.Proofs.Validation.Influence
import DocModel.Proofs.Directive.Leniency
import DocModel.Proofs.Template.Nesting
import DocModel.Proofs.Path.Subscripts
import DocModel.Proofs.Template.Reserved
import DocModel.Proofs.Template.Choices
import DocModel.Proofs.Template.Subscripts
import DocModel.Proofs.Validation.Guard
import DocModel.Proofs.Metadata.SiblingOrder
import DocModel.Proofs.Trie.Insertion
import DocModel.Proofs.Directive.Kinds
import DocModel.Proofs.Field.Kinds
import DocModel.Proofs.Metadata.Find
import DocModel.Proofs.Field.Compilation
import DocModel.Proofs.Validation.Constraints
import DocModel.Proofs.Template.Renaming
import DocModel.Proofs.Path.Nameless
import DocModel.Proofs.Field.Names
import DocModel.Proofs.Text.Words
import DocModel.Proofs.Heading.Title
import DocModel.Proofs.Heading.Tags
import DocModel.Proofs.Heading.Cuts
import DocModel.Proofs.HelperModule.Conditions
import DocModel.Proofs.Path.NormalForm
import DocModel.Proofs.Field.Addresses
import DocModel.Proofs.Text.Markup
import DocModel.Proofs.HelperModule.Markup
import DocModel.Proofs.Json.Conflation
import DocModel.Proofs.HelperModule.Containers
import DocModel.Proofs.Decimal.Integers
import DocModel.Proofs.Decimal.Reading
import DocModel.Proofs.Validation.Integers
import DocModel.Proofs.Validation.Dates
