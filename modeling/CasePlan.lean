import CasePlan.Inspection.Extraction
import CasePlan.Main
import CasePlan.Service.Answer
import CasePlan.Telemetry.Recorder
import CasePlan.Logic.Schema
import CasePlan.CommandLine.Program
import CasePlan.Template.Shipped
import CasePlan.Proofs.Logic.Consistency
import CasePlan.Proofs.Diagram.Separation
import CasePlan.Proofs.Xml.Values
import CasePlan.Proofs.Document.Collision
import CasePlan.Proofs.Text.Utf8
import CasePlan.Proofs.Json.Text
import CasePlan.Proofs.Text.Cutting
import CasePlan.Proofs.Json.Number
import CasePlan.Proofs.Json.RoundTrip
import CasePlan.Proofs.Document.Payload
import CasePlan.Proofs.Xml.Tag
import CasePlan.Proofs.Xml.RoundTrip
import CasePlan.Proofs.Xml.Spacing
import CasePlan.Proofs.Xml.LineEnd
import CasePlan.Proofs.Document.Reading
import CasePlan.Proofs.Inspection.Tidy
import CasePlan.Proofs.Document.Vocabulary
import CasePlan.Proofs.Inspection.View
import CasePlan.Proofs.Inspection.Recovery
import CasePlan.Proofs.Inspection.Extraction
import CasePlan.Proofs.Sentry.Activation
import CasePlan.Proofs.Sentry.Clearance
import CasePlan.Proofs.Sentry.Entrance
import CasePlan.Proofs.Decimal.Written
import CasePlan.Proofs.Diagram.Outline
import CasePlan.Proofs.Document.Outline
import CasePlan.Proofs.Document.Pieces
import CasePlan.Proofs.Document.Reference
import CasePlan.Proofs.Document.Texts
import CasePlan.Proofs.Document.Totality
import CasePlan.Proofs.Logic.Soundness
import CasePlan.Proofs.Logic.Failure
import CasePlan.Proofs.Expression.Reading
import CasePlan.Proofs.Inspection.Recompilation
import CasePlan.Proofs.Inspection.Gates
import CasePlan.Proofs.Inspection.Repetition
import CasePlan.Proofs.Logic.Replacement
import CasePlan.Proofs.Document.Expansion
import CasePlan.Proofs.Sentry.Loop
import CasePlan.Proofs.Logic.RoundTrip
import CasePlan.Proofs.Sentry.Rearrangement
import CasePlan.Proofs.Document.Comparison
import CasePlan.Proofs.Logic.Location
import CasePlan.Proofs.Diagram.Partition
import CasePlan.Proofs.Inspection.Reach
import CasePlan.Proofs.Inspection.Elements
import CasePlan.Proofs.Inspection.Silence
import CasePlan.Proofs.Inspection.Description
import CasePlan.Proofs.Document.Rules
import CasePlan.Proofs.Text.Name
import CasePlan.Proofs.Document.Naming
import CasePlan.Proofs.Deployment.Exchange
import CasePlan.Proofs.CommandLine.Deployment
import CasePlan.Proofs.Deployment.Connections
import CasePlan.Proofs.Diagram.Walk
import CasePlan.Proofs.Service.Answering
import CasePlan.Proofs.Telemetry.Recording
import CasePlan.Proofs.Template.Library
