import ReloadReport.Text.Blank
import ReloadReport.Text.DecimalDigit
import ReloadReport.Text.Unprintable
import ReloadReport.Text.Quoted
import ReloadReport.Text.Numeral
import ReloadReport.Text.Search
import ReloadReport.Text.Lines
import ReloadReport.Json.Basic
import ReloadReport.Json.Token
import ReloadReport.Json.Magnitude
import ReloadReport.Json.Tree
import ReloadReport.Json.Limits
import ReloadReport.Json.Writer
import ReloadReport.Json.ReadBack
import ReloadReport.Json.Record
import ReloadReport.ByName
import ReloadReport.Path
import ReloadReport.Files
import ReloadReport.Origin.AbsoluteId
import ReloadReport.Origin.Error
import ReloadReport.Origin.FileUri
import ReloadReport.Origin
import ReloadReport.Diagnostic
import ReloadReport.Log.Colour
import ReloadReport.Log.Line
import ReloadReport.Log.Scan
import ReloadReport.Provenance.Table
import ReloadReport.Provenance.Marker
import ReloadReport.Provenance
import ReloadReport.Failure
import ReloadReport.Failure.Verdict
import ReloadReport.Settings
import ReloadReport.Analysis
import ReloadReport.Report
import ReloadReport.Exchange.Diagnostic
import ReloadReport.Exchange.Failure
import ReloadReport.Exchange.Analysis
import ReloadReport.Exchange.Provenance
import ReloadReport.Exchange.Report
import ReloadReport.Command.Arguments
import ReloadReport.Command.Run
import ReloadReport.Command.Directory
import ReloadReport.Main
import ReloadReport.Proofs.Log.Colour
import ReloadReport.Proofs.Log.LineGrammar
import ReloadReport.Proofs.Log.Recovery
import ReloadReport.Proofs.VerdictCases
import ReloadReport.Proofs.Provenance.Lookup
import ReloadReport.Proofs.Provenance.Entry
import ReloadReport.Proofs.Provenance.Marker
import ReloadReport.Proofs.Provenance.LineMarks
import ReloadReport.Proofs.Provenance.Written
import ReloadReport.Proofs.RemappedReport
import ReloadReport.Proofs.ByName
import ReloadReport.Proofs.Text.ByteOrder
import ReloadReport.Proofs.Origin.Resolution
import ReloadReport.Proofs.SourceLinks
import ReloadReport.Proofs.Provenance.Sorting
import ReloadReport.Proofs.Provenance.TableText
import ReloadReport.Proofs.Provenance.TemplateBlock
import ReloadReport.Proofs.Json.Negative
import ReloadReport.Proofs.Json.Sound
import ReloadReport.Proofs.Json.RecordReadBack
import ReloadReport.Proofs.Exchange.ReadBack
import ReloadReport.Proofs.Text.Pieces
import ReloadReport.Proofs.Origin.Walk
import ReloadReport.Proofs.Origin.FileUri
import ReloadReport.Proofs.Origin.Reproduction
import ReloadReport.Proofs.EditableFile
import ReloadReport.Proofs.Log.Window
import ReloadReport.Proofs.WidenedVerdict
import ReloadReport.Proofs.Decoration
import ReloadReport.Proofs.Provenance.Listing
import ReloadReport.Proofs.Provenance.Answers
import ReloadReport.Proofs.Log.HeldErrors
import ReloadReport.Proofs.AskedFiles
import ReloadReport.Proofs.Text.LineEnds
import ReloadReport.Proofs.Provenance.LineEnds
import ReloadReport.Proofs.Command.Requests
import ReloadReport.Proofs.Command.Directory
import ReloadReport.Proofs.Command.Classification
import ReloadReport.Proofs.Json.Shape
import ReloadReport.Proofs.Json.ShapedReaders
import ReloadReport.Proofs.Json.ShapedTags
import ReloadReport.Proofs.Json.MapEntries
import ReloadReport.Proofs.Json.Spacing
import ReloadReport.Proofs.Exchange.Shapes
import ReloadReport.Proofs.Exchange.LenientReading
import ReloadReport.Proofs.Log.WrittenStart
import ReloadReport.Proofs.Provenance.SourceNames
import ReloadReport.Proofs.Provenance.ClosingMark
import ReloadReport.Proofs.Provenance.RoutesFile
import ReloadReport.Proofs.Origin.RelativeFile
import ReloadReport.Proofs.Origin.HiddenDots
import ReloadReport.Proofs.Origin.NormalForm
import ReloadReport.Proofs.Origin.DotSegments
