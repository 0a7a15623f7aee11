import LiveSurface.Batch
import LiveSurface.Command.Line
import LiveSurface.Command.Request
import LiveSurface.Command.Run
import LiveSurface.Command.Usage
import LiveSurface.Component.Catalog
import LiveSurface.Component.Definition
import LiveSurface.Component.Properties
import LiveSurface.Configuration
import LiveSurface.Data.Binding
import LiveSurface.Data.Contents
import LiveSurface.Data.Entries
import LiveSurface.Data.Path
import LiveSurface.Json.Fault
import LiveSurface.Json.Printer
import LiveSurface.Json.Reader
import LiveSurface.Main
import LiveSurface.Message
import LiveSurface.Number.Arithmetic
import LiveSurface.Number.Double
import LiveSurface.Number.Numeral
import LiveSurface.Number.Shortest
import LiveSurface.Outbound.Builder
import LiveSurface.Outbound.Messages
import LiveSurface.Proofs.Component.Registry
import LiveSurface.Proofs.Data.Nested
import LiveSurface.Proofs.Data.Parts
import LiveSurface.Proofs.Data.Placement
import LiveSurface.Proofs.Data.Replay
import LiveSurface.Proofs.Data.Skipping
import LiveSurface.Proofs.Data.Transfer
import LiveSurface.Proofs.Data.WholeNumbers
import LiveSurface.Proofs.Data.Written
import LiveSurface.Proofs.Json.Cut
import LiveSurface.Proofs.Json.Grammar
import LiveSurface.Proofs.Json.Lines
import LiveSurface.Proofs.Number.Exact
import LiveSurface.Proofs.Number.Nearest
import LiveSurface.Proofs.Number.Numeral
import LiveSurface.Proofs.Number.Range
import LiveSurface.Proofs.Number.Spelling
import LiveSurface.Proofs.Number.Truncation
import LiveSurface.Proofs.Outbound.Sequence
import LiveSurface.Proofs.Render.Ample
import LiveSurface.Proofs.Render.Ancestry
import LiveSurface.Proofs.Render.Bisimulation
import LiveSurface.Proofs.Render.Blocks
import LiveSurface.Proofs.Render.BoundPaths
import LiveSurface.Proofs.Render.Budget
import LiveSurface.Proofs.Render.Children
import LiveSurface.Proofs.Render.Containment
import LiveSurface.Proofs.Render.Content
import LiveSurface.Proofs.Render.Derivation
import LiveSurface.Proofs.Render.Descriptors
import LiveSurface.Proofs.Render.Isolation
import LiveSurface.Proofs.Render.Limits
import LiveSurface.Proofs.Render.Malformed
import LiveSurface.Proofs.Render.Origin
import LiveSurface.Proofs.Render.Outline
import LiveSurface.Proofs.Render.Printable
import LiveSurface.Proofs.Render.Printed
import LiveSurface.Proofs.Render.Reachability
import LiveSurface.Proofs.Render.Resolution
import LiveSurface.Proofs.Render.Siblings
import LiveSurface.Proofs.Render.Steady
import LiveSurface.Proofs.Render.Widths
import LiveSurface.Proofs.Result
import LiveSurface.Proofs.Session.Eviction
import LiveSurface.Proofs.Settings.Configuration
import LiveSurface.Proofs.Settings.History
import LiveSurface.Proofs.Surface.Failure
import LiveSurface.Proofs.Surface.Frame
import LiveSurface.Proofs.Surface.History
import LiveSurface.Proofs.Surface.Making
import LiveSurface.Proofs.Surface.Replay
import LiveSurface.Proofs.Surface.Rows
import LiveSurface.Proofs.Surface.Snapshot
import LiveSurface.Proofs.Surface.Soundness
import LiveSurface.Proofs.Surface.Splitting
import LiveSurface.Proofs.Surface.Withheld
import LiveSurface.Proofs.Text.Lines
import LiveSurface.Proofs.Text.Lowered
import LiveSurface.Proofs.Validation.Actions
import LiveSurface.Proofs.Validation.Decoding
import LiveSurface.Proofs.Validation.Lenient
import LiveSurface.Render.Layout
import LiveSurface.Render.Node
import LiveSurface.Render.Pass
import LiveSurface.Render.Primitives
import LiveSurface.Render.Surfaces
import LiveSurface.Render.Template
import LiveSurface.Session
import LiveSurface.Settings
import LiveSurface.Surface.Basic
import LiveSurface.Surface.Processor
import LiveSurface.Text.Blank
import LiveSurface.Text.Cased
import LiveSurface.Text.Digit
import LiveSurface.Text.Lowercase
import LiveSurface.Text.Printable
import LiveSurface.Text.Quoted
import LiveSurface.Text.Terminal
import LiveSurface.Validation.Basic
import LiveSurface.Value.Basic
import LiveSurface.Value.Conversion
import LiveSurface.Value.Fault
import LiveSurface.Yaml.Fault
import LiveSurface.Yaml.Line
import LiveSurface.Yaml.Node
import LiveSurface.Yaml.Reader
import LiveSurface.Yaml.Scalar
import LiveSurface.Yaml.Timestamp
