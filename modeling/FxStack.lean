import FxStack.Catalog
import FxStack.Catalog.Builtin
import FxStack.CommandLine.Files
import FxStack.CommandLine.Options
import FxStack.CommandLine.Run
import FxStack.Decimal
import FxStack.Decimal.Layout
import FxStack.Decimal.Shortest
import FxStack.Device
import FxStack.Device.Faulty
import FxStack.Device.Handle
import FxStack.Device.Reference
import FxStack.Device.Texture
import FxStack.Effect
import FxStack.Error
import FxStack.Float.Double
import FxStack.Float.Format
import FxStack.Float.Single
import FxStack.Frame
import FxStack.Frame.Report
import FxStack.Frame.Uniforms
import FxStack.Image
import FxStack.Image.Checksum
import FxStack.Image.Deflate
import FxStack.Image.Png
import FxStack.Image.Resample
import FxStack.Json.Basic
import FxStack.Json.Decode
import FxStack.Json.Number
import FxStack.Json.Printer
import FxStack.Json.Reader
import FxStack.KeyMap
import FxStack.Main
import FxStack.Notice
import FxStack.Pass
import FxStack.Program.ActiveUniforms
import FxStack.Program.Brackets
import FxStack.Program.Text
import FxStack.Random
import FxStack.ScratchPool
import FxStack.Stack
import FxStack.Stack.Compile
import FxStack.Stack.Entry
import FxStack.Stack.Saved
import FxStack.Template
import FxStack.Text.Blank
import FxStack.Text.Concealed
import FxStack.Text.Lines
import FxStack.Text.Quoted
import FxStack.Uniform
import FxStack.Uniform.Binding
import FxStack.Uniform.Json
import FxStack.Uniform.Value
import FxStack.Proofs.Catalog.Definition
import FxStack.Proofs.Catalog.Registration
import FxStack.Proofs.Catalog.Reread
import FxStack.Proofs.Catalog.Schema
import FxStack.Proofs.Catalog.Shelf
import FxStack.Proofs.Catalog.Update
import FxStack.Proofs.Catalog.Version
import FxStack.Proofs.CommandLine.Arguments
import FxStack.Proofs.Decimal
import FxStack.Proofs.Device.Block
import FxStack.Proofs.Device.Footprint
import FxStack.Proofs.Device.Front
import FxStack.Proofs.Device.Ledger
import FxStack.Proofs.Device.Operation
import FxStack.Proofs.Device.Reference
import FxStack.Proofs.Device.Service
import FxStack.Proofs.Float.Error
import FxStack.Proofs.Float.Exact
import FxStack.Proofs.Float.Integer
import FxStack.Proofs.Float.Rounding
import FxStack.Proofs.Frame.Again
import FxStack.Proofs.Frame.Alternation
import FxStack.Proofs.Frame.Application
import FxStack.Proofs.Frame.Arrival
import FxStack.Proofs.Frame.Bindings
import FxStack.Proofs.Frame.Completion
import FxStack.Proofs.Frame.Course
import FxStack.Proofs.Frame.Delivery
import FxStack.Proofs.Frame.Ending
import FxStack.Proofs.Frame.Footprint
import FxStack.Proofs.Frame.Issued
import FxStack.Proofs.Frame.Mirror
import FxStack.Proofs.Frame.Picture
import FxStack.Proofs.Frame.Provenance
import FxStack.Proofs.Frame.Rig
import FxStack.Proofs.Frame.Sampling
import FxStack.Proofs.Frame.Slots
import FxStack.Proofs.Frame.Steady
import FxStack.Proofs.Frame.Still
import FxStack.Proofs.Json.Decoding
import FxStack.Proofs.Json.Number
import FxStack.Proofs.Json.Numeral
import FxStack.Proofs.Json.Quoted
import FxStack.Proofs.Json.Spelling
import FxStack.Proofs.Lookup
import FxStack.Proofs.Pass.Declaration
import FxStack.Proofs.Pass.Locality
import FxStack.Proofs.Pass.Mention
import FxStack.Proofs.Pass.Partition
import FxStack.Proofs.Pass.Sweep
import FxStack.Proofs.Program.Activity
import FxStack.Proofs.Program.Assembly
import FxStack.Proofs.Program.Brackets
import FxStack.Proofs.Program.Callees
import FxStack.Proofs.Program.Nesting
import FxStack.Proofs.Program.Reading
import FxStack.Proofs.Program.Renaming
import FxStack.Proofs.Program.Vocabulary
import FxStack.Proofs.Random
import FxStack.Proofs.ScratchPool
import FxStack.Proofs.ScratchPool.Accounts
import FxStack.Proofs.ScratchPool.Loans
import FxStack.Proofs.ScratchPool.Stock
import FxStack.Proofs.Stack.Acceptance
import FxStack.Proofs.Stack.Cache
import FxStack.Proofs.Stack.Edit
import FxStack.Proofs.Stack.Handles
import FxStack.Proofs.Stack.Holdings
import FxStack.Proofs.Stack.Moving
import FxStack.Proofs.Stack.Reloading
import FxStack.Proofs.Stack.Saving
import FxStack.Proofs.Stack.Session
import FxStack.Proofs.Stack.Shape
import FxStack.Proofs.Stack.Studio
import FxStack.Proofs.Stack.Tour
import FxStack.Proofs.Template
import FxStack.Proofs.Template.Grammar
import FxStack.Proofs.Template.Instance
import FxStack.Proofs.Template.Normal
import FxStack.Proofs.Template.Symbols
import FxStack.Proofs.Text.Lines
import FxStack.Proofs.Text.Runs
import FxStack.Proofs.Uniform.Name
import FxStack.Proofs.Uniform.Shape
import FxStack.Proofs.Uniform.Text
import FxStack.Proofs.Uniform.Typing
