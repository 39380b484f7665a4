import CodeDiagram.CommandLine.Arguments
import CodeDiagram.CommandLine.Help
import CodeDiagram.CommandLine.Host
import CodeDiagram.CommandLine.Memory
import CodeDiagram.CommandLine.Run
import CodeDiagram.Diagram.CallGraph
import CodeDiagram.Diagram.DataFlow
import CodeDiagram.Diagram.Kind
import CodeDiagram.Diagram.Outline
import CodeDiagram.Diagram.Pipeline
import CodeDiagram.Diagram.Stats
import CodeDiagram.Drawing.Escape
import CodeDiagram.Drawing.Projection
import CodeDiagram.Drawing.Svg
import CodeDiagram.FrontEnd.Basic
import CodeDiagram.FrontEnd.Collecting
import CodeDiagram.FrontEnd.Java
import CodeDiagram.FrontEnd.Python
import CodeDiagram.FrontEnd.Registry
import CodeDiagram.FrontEnd.Targets
import CodeDiagram.Graph.Basic
import CodeDiagram.Graph.Depth
import CodeDiagram.Graph.Indexed
import CodeDiagram.Graph.Kind
import CodeDiagram.Graph.Metadata
import CodeDiagram.Graph.Search
import CodeDiagram.Json.Basic
import CodeDiagram.Json.Reader
import CodeDiagram.Json.Record
import CodeDiagram.Language.Basic
import CodeDiagram.Language.Detection
import CodeDiagram.Layout.Coordinate
import CodeDiagram.Layout.Digest
import CodeDiagram.Layout.Force
import CodeDiagram.Layout.Placement
import CodeDiagram.Layout.RandomStream
import CodeDiagram.Layout.Seed
import CodeDiagram.Main
import CodeDiagram.Number.Binary
import CodeDiagram.Number.Decimal
import CodeDiagram.Number.Natural
import CodeDiagram.Number.Nearest
import CodeDiagram.Proofs.CallGraph.Calls
import CodeDiagram.Proofs.CallGraph.Creations
import CodeDiagram.Proofs.CallGraph.Deepening
import CodeDiagram.Proofs.CallGraph.Framing
import CodeDiagram.Proofs.CallGraph.Linking
import CodeDiagram.Proofs.CallGraph.Sites
import CodeDiagram.Proofs.CommandLine.Printing
import CodeDiagram.Proofs.DataFlow.Agreement
import CodeDiagram.Proofs.DataFlow.Coverage
import CodeDiagram.Proofs.DataFlow.Definitions
import CodeDiagram.Proofs.DataFlow.Evaluation
import CodeDiagram.Proofs.DataFlow.Findings
import CodeDiagram.Proofs.DataFlow.Labels
import CodeDiagram.Proofs.DataFlow.Layering
import CodeDiagram.Proofs.DataFlow.Layers
import CodeDiagram.Proofs.DataFlow.Limits
import CodeDiagram.Proofs.DataFlow.Once
import CodeDiagram.Proofs.DataFlow.Recording
import CodeDiagram.Proofs.DataFlow.States
import CodeDiagram.Proofs.DataFlow.Unread
import CodeDiagram.Proofs.DataFlow.Uses
import CodeDiagram.Proofs.DataFlow.Visits
import CodeDiagram.Proofs.Drawing.Entities
import CodeDiagram.Proofs.Drawing.Legal
import CodeDiagram.Proofs.Drawing.Markup
import CodeDiagram.Proofs.Drawing.Pictures
import CodeDiagram.Proofs.Drawing.Stretching
import CodeDiagram.Proofs.FrontEnd.Bindings
import CodeDiagram.Proofs.FrontEnd.Collecting
import CodeDiagram.Proofs.FrontEnd.Declarations
import CodeDiagram.Proofs.FrontEnd.Naming
import CodeDiagram.Proofs.FrontEnd.Places
import CodeDiagram.Proofs.FrontEnd.Reading
import CodeDiagram.Proofs.FrontEnd.Registering
import CodeDiagram.Proofs.FrontEnd.Rereading
import CodeDiagram.Proofs.FrontEnd.Spelling
import CodeDiagram.Proofs.FrontEnd.Steps
import CodeDiagram.Proofs.FrontEnd.Targets
import CodeDiagram.Proofs.FrontEnd.TypeNames
import CodeDiagram.Proofs.FrontEnd.Wrapping
import CodeDiagram.Proofs.Graph.Distance
import CodeDiagram.Proofs.Graph.Indexing
import CodeDiagram.Proofs.Graph.Removing
import CodeDiagram.Proofs.Graph.Searching
import CodeDiagram.Proofs.Graph.Sound
import CodeDiagram.Proofs.Json.Leaves
import CodeDiagram.Proofs.Json.Texts
import CodeDiagram.Proofs.Language.Detection
import CodeDiagram.Proofs.Layout.Exact
import CodeDiagram.Proofs.Layout.Filling
import CodeDiagram.Proofs.Layout.Levels
import CodeDiagram.Proofs.Layout.Placement
import CodeDiagram.Proofs.Layout.Seeds
import CodeDiagram.Proofs.Layout.Shape
import CodeDiagram.Proofs.Number.Digits
import CodeDiagram.Proofs.Number.Floats
import CodeDiagram.Proofs.Number.Rounding
import CodeDiagram.Proofs.Number.Shortest
import CodeDiagram.Proofs.Outline.Accounts
import CodeDiagram.Proofs.Outline.Building
import CodeDiagram.Proofs.Outline.Collecting
import CodeDiagram.Proofs.Outline.Growing
import CodeDiagram.Proofs.Outline.Keeping
import CodeDiagram.Proofs.Outline.Labels
import CodeDiagram.Proofs.Outline.Restricting
import CodeDiagram.Proofs.Outline.Shape
import CodeDiagram.Proofs.Outline.Walking
import CodeDiagram.Proofs.Pipeline.Answers
import CodeDiagram.Proofs.Pipeline.Diagnostics
import CodeDiagram.Proofs.Pipeline.Runs
import CodeDiagram.Proofs.Pipeline.Sources
import CodeDiagram.Proofs.Pipeline.Statistics
import CodeDiagram.Proofs.Report.Decoding
import CodeDiagram.Proofs.Service.Sizes
import CodeDiagram.Proofs.Settings.Loading
import CodeDiagram.Proofs.Settings.Text
import CodeDiagram.Proofs.Syntax.Faults
import CodeDiagram.Proofs.Syntax.Paths
import CodeDiagram.Proofs.Table
import CodeDiagram.Proofs.Text.Breaks
import CodeDiagram.Proofs.Text.Characters
import CodeDiagram.Proofs.Text.Counting
import CodeDiagram.Proofs.Text.Dedenting
import CodeDiagram.Proofs.Text.Lowering
import CodeDiagram.Proofs.Text.Searching
import CodeDiagram.Proofs.Text.Terminators
import CodeDiagram.Proofs.Text.Tolerance
import CodeDiagram.Proofs.Toml.Integers
import CodeDiagram.Proofs.Toml.Lines
import CodeDiagram.Proofs.Toml.Numbers
import CodeDiagram.Proofs.Toml.Strings
import CodeDiagram.Proofs.Toml.Tables
import CodeDiagram.Report.Decoding
import CodeDiagram.Report.Encoding
import CodeDiagram.Service.Body
import CodeDiagram.Service.MediaType
import CodeDiagram.Service.Page
import CodeDiagram.Service.Routes
import CodeDiagram.Settings.Basic
import CodeDiagram.Settings.Check
import CodeDiagram.Settings.Decoding
import CodeDiagram.Settings.Text
import CodeDiagram.Syntax.Document
import CodeDiagram.Syntax.Fault
import CodeDiagram.Syntax.FirstFault
import CodeDiagram.Syntax.Recorded
import CodeDiagram.Syntax.Tree
import CodeDiagram.Text.Blank
import CodeDiagram.Text.Casing
import CodeDiagram.Text.Label
import CodeDiagram.Text.Letter
import CodeDiagram.Text.Lines
import CodeDiagram.Text.Path
import CodeDiagram.Text.Pattern
import CodeDiagram.Text.Slice
import CodeDiagram.Text.Word
import CodeDiagram.Toml.Printer
import CodeDiagram.Toml.Reader
import CodeDiagram.Toml.Scalar
import CodeDiagram.Toml.Table
import CodeDiagram.Toml.Text
import CodeDiagram.Toml.Value
