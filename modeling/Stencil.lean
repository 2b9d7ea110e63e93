import Stencil.Arguments
import Stencil.Axes
import Stencil.Canvas
import Stencil.Color
import Stencil.CommandLine
import Stencil.Coordinate
import Stencil.Decimal.Binary
import Stencil.Decimal.Notation
import Stencil.Decimal.Reading
import Stencil.Decimal.Shortest
import Stencil.Drawing
import Stencil.Failure
import Stencil.Generator
import Stencil.Gradient
import Stencil.Grid
import Stencil.Image
import Stencil.Image.FileFormat
import Stencil.Image.Png
import Stencil.Json.Description
import Stencil.Json.Printer
import Stencil.Json.Reader
import Stencil.Json.Value
import Stencil.Library
import Stencil.Library.Folder
import Stencil.Main
import Stencil.Number
import Stencil.Outline
import Stencil.Output
import Stencil.Page
import Stencil.Page.Picture
import Stencil.Page.Svg
import Stencil.Path
import Stencil.Point
import Stencil.Polygon
import Stencil.Proofs.Text.Trim
import Stencil.Record.Canvas
import Stencil.Record.Error
import Stencil.Record.Field
import Stencil.Record.Stamp
import Stencil.Script
import Stencil.Session
import Stencil.Shape
import Stencil.Shape.Builtin
import Stencil.Shape.Template
import Stencil.Sheet
import Stencil.Stamp
import Stencil.Store
import Stencil.Surface
import Stencil.Surface.Figure
import Stencil.Surface.Raster
import Stencil.Surface.Recording
import Stencil.Text.Blank
import Stencil.Text.Case
import Stencil.Text.Case.Table
import Stencil.Text.Case.Upper
import Stencil.Text.CodeRange
import Stencil.Text.Digit
import Stencil.Text.Lines
import Stencil.Text.Loose
import Stencil.Text.Pieces
import Stencil.Text.Printable
import Stencil.Text.Quoted
import Stencil.Proofs.Text.LowerCase
import Stencil.Proofs.Decimal.Numeral
import Stencil.Proofs.Record.Field
import Stencil.Proofs.Record.Integer
import Stencil.Proofs.Record.Grammar
import Stencil.Proofs.Record.Written
import Stencil.Proofs.Record.Canvas
import Stencil.Proofs.Record.Stamp
import Stencil.Proofs.Script.Reading
import Stencil.Proofs.Script.RoundTrip
import Stencil.Proofs.Script.Lenient
import Stencil.Proofs.Script.Acceptance
import Stencil.Proofs.Record.Margin
import Stencil.Proofs.Script.Cleaning
import Stencil.Proofs.Text.LetterCase
import Stencil.Proofs.Text.Seam
import Stencil.Proofs.Text.Stanza
import Stencil.Proofs.Record.Parts
import Stencil.Proofs.Record.Vocabulary
import Stencil.Proofs.Record.Edit
import Stencil.Proofs.Script.Edit
import Stencil.Proofs.Number.Magnitude
import Stencil.Proofs.Drawing.Course
import Stencil.Proofs.Drawing.Painting
import Stencil.Proofs.Drawing.Ground
import Stencil.Proofs.Drawing.Block
import Stencil.Proofs.Drawing.Outcome
import Stencil.Proofs.Drawing.Placement
import Stencil.Proofs.Drawing.Lockstep
import Stencil.Proofs.Drawing.Composition
import Stencil.Proofs.Drawing.Replay
import Stencil.Proofs.Path
import Stencil.Proofs.Store.Folders
import Stencil.Proofs.Session
import Stencil.Proofs.Store.Writing
import Stencil.Proofs.CommandLine.Batch
import Stencil.Proofs.CommandLine.Reading
import Stencil.Proofs.CommandLine.Rendering
import Stencil.Proofs.CommandLine.Status
import Stencil.Proofs.Arguments
import Stencil.Proofs.Number.Percent
import Stencil.Proofs.Image.Layers
import Stencil.Proofs.Drawing.Squares
import Stencil.Proofs.Store.Changes
import Stencil.Proofs.Library.Folder
import Stencil.Proofs.Library.Naming
import Stencil.Proofs.CommandLine.Outputs
import Stencil.Proofs.Drawing.Gradient
import Stencil.Proofs.Drawing.Spread
import Stencil.Proofs.CommandLine.Account
import Stencil.Proofs.CommandLine.Separate
import Stencil.Proofs.Number.Nearest
import Stencil.Proofs.Number.Unpacked
import Stencil.Proofs.Number.Double
import Stencil.Proofs.Drawing.Scaling
import Stencil.Proofs.Drawing.Mixing
import Stencil.Proofs.Record.Request
import Stencil.Proofs.Library.Catalogue
import Stencil.Proofs.Number.Scientific
import Stencil.Proofs.Decimal.Shortest
import Stencil.Proofs.Json.Number
import Stencil.Proofs.Json.Escape
import Stencil.Proofs.Json.RoundTrip
import Stencil.Proofs.Shape.Template
import Stencil.Proofs.Surface.Calls
import Stencil.Proofs.Sheet
