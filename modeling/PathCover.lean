import PathCover.Main
import PathCover.Proofs.Grammar.Derivation
import PathCover.Proofs.Tree.Reading
import PathCover.Proofs.Tree.Course
import PathCover.Proofs.Tree.Moves
import PathCover.Proofs.Grammar.Meaning
import PathCover.Proofs.Grammar.Soundness
import PathCover.Proofs.Grammar.Accepts
import PathCover.Proofs.Path.Canonical
import PathCover.Proofs.Path.RoundTrip
import PathCover.Proofs.Coverage.ClosedForm
import PathCover.Proofs.Token.Nesting
import PathCover.Proofs.Tree.Patience
import PathCover.Proofs.Rule.Lookup
import PathCover.Proofs.Coverage.Placement
import PathCover.Proofs.Coverage.Alignment
import PathCover.Proofs.Coverage.Greedy
import PathCover.Proofs.Tree.Nesting
import PathCover.Proofs.Tree.Limits
import PathCover.Proofs.Tree.Admission
import PathCover.Proofs.Tree.Exhaustion
import PathCover.Proofs.Rule.Abort
import PathCover.Proofs.Tree.Nodes
import PathCover.Proofs.Token.Tiling
import PathCover.Proofs.Tree.Lossless
import PathCover.Proofs.Tree.Relabel
import PathCover.Proofs.Tree.Blanks
import PathCover.Proofs.Path.Shape
import PathCover.Proofs.Path.ReadBack
import PathCover.Proofs.Path.Identity
import PathCover.Proofs.Rule.History
import PathCover.Proofs.Json.ReadBack
import PathCover.Proofs.Rule.JsonRoundTrip
import PathCover.Proofs.Path.JsonRoundTrip
import PathCover.Proofs.Text.Outside
import PathCover.Proofs.Token.Splice
import PathCover.Proofs.Tree.Neat
import PathCover.Proofs.Tree.Plain
import PathCover.Proofs.Tree.Predicates
import PathCover.Proofs.Path.Gluing
import PathCover.Proofs.Coverage.Laws
import PathCover.Proofs.Diagnostic.Filter
import PathCover.Proofs.Diagnostic.Order
import PathCover.Proofs.Coverage.Extension
import PathCover.Proofs.Path.QuotedTarget
import PathCover.Proofs.Tree.Building
import PathCover.Proofs.Token.Pattern
import PathCover.Proofs.Token.Longest
import PathCover.Proofs.Token.Frame
import PathCover.Proofs.Tree.Provenance
import PathCover.Proofs.Coverage.Preorder
import PathCover.Proofs.Tree.Reports
