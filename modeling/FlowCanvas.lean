import FlowCanvas.Main
import FlowCanvas.Proofs.Canvas.Commits
import FlowCanvas.Proofs.Canvas.Copying
import FlowCanvas.Proofs.Canvas.Interchange
import FlowCanvas.Proofs.Canvas.Loading
import FlowCanvas.Proofs.Command.Batch
import FlowCanvas.Proofs.Command.CanvasFile
import FlowCanvas.Proofs.Command.Graph
import FlowCanvas.Proofs.Command.Outputs
import FlowCanvas.Proofs.Decimal.Numerals
import FlowCanvas.Proofs.Decimal.Range
import FlowCanvas.Proofs.Decimal.Rounding
import FlowCanvas.Proofs.Diagram.Attributes
import FlowCanvas.Proofs.Diagram.Chains
import FlowCanvas.Proofs.Diagram.Entries
import FlowCanvas.Proofs.Diagram.Fences
import FlowCanvas.Proofs.Diagram.Headers
import FlowCanvas.Proofs.Diagram.HiddenArrows
import FlowCanvas.Proofs.Diagram.NormalForm
import FlowCanvas.Proofs.Diagram.RoundTrip
import FlowCanvas.Proofs.Diagram.Significance
import FlowCanvas.Proofs.Diagram.Unwrapping
import FlowCanvas.Proofs.Files
import FlowCanvas.Proofs.Files.Folders
import FlowCanvas.Proofs.Identity.Reconciliation
import FlowCanvas.Proofs.Identity.Search
import FlowCanvas.Proofs.Layout.DotLabels
import FlowCanvas.Proofs.Layout.DotReading
import FlowCanvas.Proofs.Layout.DotStatements
import FlowCanvas.Proofs.Layout.DotValues
import FlowCanvas.Proofs.Layout.GraphvizAnswer
import FlowCanvas.Proofs.Layout.GridShape
import FlowCanvas.Proofs.Layout.Overlap
import FlowCanvas.Proofs.Pipeline.Committed
import FlowCanvas.Proofs.Pipeline.Completion
import FlowCanvas.Proofs.Pipeline.Conversation
import FlowCanvas.Proofs.Pipeline.EmptyReply
import FlowCanvas.Proofs.Pipeline.Interleaving
import FlowCanvas.Proofs.Pipeline.Journal
import FlowCanvas.Proofs.Pipeline.LineNumbers
import FlowCanvas.Proofs.Pipeline.Regeneration
import FlowCanvas.Proofs.Pipeline.Replies
import FlowCanvas.Proofs.Pipeline.Saving
import FlowCanvas.Proofs.Pipeline.Trails
import FlowCanvas.Proofs.Pipeline.Widths
import FlowCanvas.Proofs.Settings.Acceptance
import FlowCanvas.Proofs.Settings.Reading
import FlowCanvas.Proofs.Settings.Refusals
import FlowCanvas.Proofs.Text.Utf8
