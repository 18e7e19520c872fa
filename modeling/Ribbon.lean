import Ribbon.Command.Run
import Ribbon.Config
import Ribbon.Config.Document
import Ribbon.Decimal
import Ribbon.Grid
import Ribbon.Json.Cursor
import Ribbon.Json.Number
import Ribbon.Json.Reader
import Ribbon.Json.Text
import Ribbon.Log
import Ribbon.Main
import Ribbon.Mesh.Document
import Ribbon.Palette
import Ribbon.Palette.Document
import Ribbon.Path
import Ribbon.Plan
import Ribbon.Sequence
import Ribbon.Sequence.Census
import Ribbon.Symbol
import Ribbon.Symbol.Document
import Ribbon.Text
import Ribbon.Turtle
import Ribbon.Turtle.Document
import Ribbon.Vector
import Ribbon.Proofs.Binary.Arithmetic
import Ribbon.Proofs.Binary.Blend
import Ribbon.Proofs.Binary.Nearest
import Ribbon.Proofs.Binary.Packing
import Ribbon.Proofs.Binary.Remainder
import Ribbon.Proofs.Binary.Rounding
import Ribbon.Proofs.Binary.Status
import Ribbon.Proofs.Binary.Value
import Ribbon.Proofs.Binary.Whole
import Ribbon.Proofs.Command.Outcome
import Ribbon.Proofs.Config.Loading
import Ribbon.Proofs.Config.Overrides
import Ribbon.Proofs.Config.RoundTrip
import Ribbon.Proofs.Config.Settings
import Ribbon.Proofs.Decimal.Clearance
import Ribbon.Proofs.Decimal.Margin
import Ribbon.Proofs.Decimal.Shortest
import Ribbon.Proofs.Grid.Motion
import Ribbon.Proofs.Grid.Reversal
import Ribbon.Proofs.Grid.SelfAvoidance
import Ribbon.Proofs.Grid.Tiling
import Ribbon.Proofs.Json.Accepted
import Ribbon.Proofs.Json.Double
import Ribbon.Proofs.Json.Enclosed
import Ribbon.Proofs.Json.Layout
import Ribbon.Proofs.Json.Number
import Ribbon.Proofs.Json.Single
import Ribbon.Proofs.Json.Skipped
import Ribbon.Proofs.Json.Text
import Ribbon.Proofs.Json.Values
import Ribbon.Proofs.Json.Written
import Ribbon.Proofs.Mesh.Builder
import Ribbon.Proofs.Mesh.Strokes
import Ribbon.Proofs.Palette.Color
import Ribbon.Proofs.Palette.Cycle
import Ribbon.Proofs.Path.Sketch
import Ribbon.Proofs.Path.Trace
import Ribbon.Proofs.Plan.Aspects
import Ribbon.Proofs.Plan.Capacity
import Ribbon.Proofs.Plan.Coordinates
import Ribbon.Proofs.Plan.Draw
import Ribbon.Proofs.Plan.Generations
import Ribbon.Proofs.Plan.Outcome
import Ribbon.Proofs.Plan.Safety
import Ribbon.Proofs.Sequence.Census
import Ribbon.Proofs.Sequence.Growth
import Ribbon.Proofs.Sequence.Leads
import Ribbon.Proofs.Sequence.Notation
import Ribbon.Proofs.Turtle.Document
import Ribbon.Proofs.Turtle.Heading
