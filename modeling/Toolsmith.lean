import Toolsmith.FileTree
import Toolsmith.Main
import Toolsmith.Number.Double.Reader
import Toolsmith.Proofs.Operation.Admission
import Toolsmith.Proofs.Operation.Reading
import Toolsmith.Proofs.Parameter.Conformance
import Toolsmith.Proofs.Parameter.Default
import Toolsmith.Proofs.Selection.Arguments
import Toolsmith.Proofs.Selection.Paths
import Toolsmith.Proofs.Tool.Catalog
import Toolsmith.Proofs.Tool.Index
import Toolsmith.Proofs.Tool.Locality
import Toolsmith.Proofs.Parameter.Names
import Toolsmith.Proofs.GraphQL.Schema.Closed
import Toolsmith.Proofs.Tool.Resolution
import Toolsmith.Proofs.GraphQL.Document.Order
import Toolsmith.Proofs.GraphQL.Line
import Toolsmith.Proofs.GraphQL.Document.Joining
import Toolsmith.Proofs.Tool.Rearrangement
import Toolsmith.Proofs.Parameter.Occurrence
import Toolsmith.Proofs.Operation.Loosening
import Toolsmith.Proofs.CommandLine.Report
import Toolsmith.Proofs.Parameter.Shape
import Toolsmith.Proofs.Value.Faults
import Toolsmith.Proofs.Tool.CatalogText
import Toolsmith.Proofs.Text.Line
import Toolsmith.Proofs.Report.Layout
import Toolsmith.Proofs.Text.Blank
import Toolsmith.Proofs.Report.Summary
import Toolsmith.Proofs.Settings.Entries
import Toolsmith.Proofs.Number.Integer
import Toolsmith.Proofs.Parameter.Uses
import Toolsmith.Proofs.Settings.Depth
import Toolsmith.Proofs.Call
import Toolsmith.Proofs.CommandLine.Written
