import Inlay.Main
import Inlay.Proofs.Component.Revision
import Inlay.Proofs.Component.Atomicity
import Inlay.Proofs.Files.Canonical
import Inlay.Proofs.Stylesheet.ExpansionRun
import Inlay.Proofs.Stylesheet.Resolution
import Inlay.Proofs.Stylesheet.Composition
import Inlay.Proofs.Stylesheet.IncludeOnce
import Inlay.Proofs.Literal.PathListGrammar
import Inlay.Proofs.Stylesheet.Hoisting
import Inlay.Proofs.Text.Places
import Inlay.Proofs.Literal.Escaping
import Inlay.Proofs.Literal.TemplateLiteral
import Inlay.Proofs.Component.Loading
import Inlay.Proofs.Component.OwnReferences
import Inlay.Proofs.Files.Changes
import Inlay.Proofs.Component.Schedule
import Inlay.Proofs.Component.Interleaving
import Inlay.Proofs.Encoding.RoundTrip
import Inlay.Proofs.Text.Occurrences
import Inlay.Proofs.Component.StyleList
import Inlay.Proofs.Component.Rerun
import Inlay.Proofs.Discovery.Order
import Inlay.Proofs.Component.Confinement
import Inlay.Proofs.Component.RunAccount
import Inlay.Proofs.Component.Isolation
import Inlay.Proofs.Stylesheet.Nesting
import Inlay.Proofs.Component.Preservation
import Inlay.Proofs.Command.Escapes
import Inlay.Proofs.Stylesheet.Closed
import Inlay.Proofs.Stylesheet.Settled
import Inlay.Proofs.Stylesheet.Balance
import Inlay.Proofs.Inquiry.Parallel
import Inlay.Proofs.Text.Locality
import Inlay.Proofs.Stylesheet.TokenSpelling
import Inlay.Proofs.Stylesheet.Opaque
import Inlay.Proofs.Stylesheet.QuotedAddress
import Inlay.Proofs.Stylesheet.KeptStatements
import Inlay.Proofs.Stylesheet.Definitions
import Inlay.Proofs.Stylesheet.Splitting
import Inlay.Proofs.Component.TemplatePlaces
import Inlay.Proofs.Component.StyleOrder
import Inlay.Proofs.Stylesheet.StrayFaults
import Inlay.Proofs.Component.Unchanged
import Inlay.Proofs.Files.Walks
import Inlay.Proofs.Files.Answers
import Inlay.Proofs.Component.MissingResources
import Inlay.Proofs.Stylesheet.PackageSearch
import Inlay.Proofs.Stylesheet.PackageBounds
import Inlay.Proofs.Literal.PathListFaults
import Inlay.Proofs.Literal.BodyContent
import Inlay.Proofs.Component.LineEnds
import Inlay.Proofs.Config.Layers
import Inlay.Proofs.Config.Loaded
import Inlay.Proofs.Config.References
import Inlay.Proofs.Config.ListSettings
import Inlay.Proofs.Discovery.Matching
import Inlay.Proofs.Discovery.CandidateSet
import Inlay.Proofs.Text.SplitOn
import Inlay.Proofs.Path.Resolved
import Inlay.Proofs.Component.Detours
