import Marginalia.Debug.Trace
import Marginalia.Diagnostic.Build
import Marginalia.Proofs.Snippet.Coverage
import Marginalia.Proofs.Snippet.Separation
import Marginalia.Proofs.Source.Chain
import Marginalia.Proofs.Source.Spelling
import Marginalia.Proofs.Layout.Relation
import Marginalia.Proofs.Snippet.Placement
import Marginalia.Proofs.Report.Rendering
import Marginalia.Proofs.Span.Moved
import Marginalia.Proofs.Snippet.Moved
import Marginalia.Proofs.Source.Returns
import Marginalia.Proofs.Layout.Moved
import Marginalia.Proofs.Text.Returns
import Marginalia.Proofs.Snippet.Redrawn
import Marginalia.Proofs.Snippet.Returns
import Marginalia.Proofs.Snippet.Isolation
import Marginalia.Proofs.Snippet.Reordering
import Marginalia.Proofs.Source.Marked
import Marginalia.Proofs.Layout.Marked
import Marginalia.Proofs.Snippet.Marked
import Marginalia.Proofs.Report.Colour
import Marginalia.Proofs.Snippet.Widening
import Marginalia.Proofs.Diagnostic.Places
import Marginalia.Proofs.Report.Nesting
import Marginalia.Proofs.Text.Column
import Marginalia.Proofs.Snippet.Underlines
import Marginalia.Proofs.Snippet.Alignment
import Marginalia.Proofs.Snippet.Edges
import Marginalia.Proofs.Snippet.Waiting
import Marginalia.Proofs.Layout.Lines
import Marginalia.Proofs.Snippet.Connectors
import Marginalia.Proofs.Source.Locating
import Marginalia.Proofs.Report.Environment
import Marginalia.Proofs.Debug.History
import Marginalia.Proofs.Report.Built
import Marginalia.Proofs.Debug.Enabled
import Marginalia.Proofs.Report.Causes
import Marginalia.Proofs.Report.Wrapped
import Marginalia.Proofs.Layout.Columns
import Marginalia.Proofs.Report.Links
