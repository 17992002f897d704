import PlaneReport.Main
import PlaneReport.Response.Decode
import PlaneReport.Proofs.Binary.Rounding
import PlaneReport.Proofs.Console
import PlaneReport.Proofs.Decimal.Digits
import PlaneReport.Proofs.Decimal.Shortest
import PlaneReport.Proofs.Deed
import PlaneReport.Proofs.Json.Reader
import PlaneReport.Proofs.Layer.Leaf
import PlaneReport.Proofs.Log.Directive
import PlaneReport.Proofs.Log.Filter
import PlaneReport.Proofs.Outline.Shape
import PlaneReport.Proofs.Response.Report
import PlaneReport.Proofs.Run.Exit
import PlaneReport.Proofs.Settings.Finite
import PlaneReport.Proofs.Settings.Layering
import PlaneReport.Proofs.Settings.Reporting
import PlaneReport.Proofs.Settings.RoundTrip
import PlaneReport.Proofs.Settings.Saving
import PlaneReport.Proofs.Run.Fallback
import PlaneReport.Proofs.Path
import PlaneReport.Proofs.Workspace.Search
import PlaneReport.Proofs.FileTree.Frame
import PlaneReport.Proofs.FileTree.Vacant
import PlaneReport.Proofs.Settings.Template
import PlaneReport.Proofs.Workspace.Initialise
import PlaneReport.Proofs.Workspace.Save
import PlaneReport.Proofs.FileTree.Exchange
import PlaneReport.Proofs.Layer.Masked
import PlaneReport.Proofs.Run.Logging
import PlaneReport.Proofs.Command.Informed
import PlaneReport.Proofs.Workspace.Lookup
import PlaneReport.Proofs.Run.Config
import PlaneReport.Proofs.Json.Tokens
import PlaneReport.Proofs.Json.Printed
import PlaneReport.Proofs.Response.Envelope
import PlaneReport.Proofs.Run.Course
import PlaneReport.Proofs.Run.Reported
import PlaneReport.Proofs.Run.Refused
import PlaneReport.Proofs.Decimal.Fixed
import PlaneReport.Proofs.Report.Reading
import PlaneReport.Proofs.Point.Distance
import PlaneReport.Proofs.Report.Fraction
import PlaneReport.Proofs.Report.Symmetry
import PlaneReport.Proofs.Text.Trim
import PlaneReport.Proofs.Level
import PlaneReport.Proofs.Settings.Override
import PlaneReport.Proofs.Settings.Order
import PlaneReport.Proofs.Settings.Overlay
import PlaneReport.Proofs.Point.Json
import PlaneReport.Proofs.Response.Success
