import TaskDiagram.Block.Field
import TaskDiagram.Block.Kind
import TaskDiagram.Block.Socket
import TaskDiagram.Command.Invocation
import TaskDiagram.Command.Options
import TaskDiagram.Command.Output
import TaskDiagram.Command.Report
import TaskDiagram.Command.Run
import TaskDiagram.Config
import TaskDiagram.Decimal.Shortest
import TaskDiagram.Decimal.Signed
import TaskDiagram.Decimal.Style
import TaskDiagram.Decimal.Whole
import TaskDiagram.Decimal.Word
import TaskDiagram.Document.Conversion
import TaskDiagram.Document.Error
import TaskDiagram.Document.Reader
import TaskDiagram.Grammar.Basic
import TaskDiagram.Grammar.Description
import TaskDiagram.Grammar.Standard
import TaskDiagram.Graph.Basic
import TaskDiagram.Graph.Dot
import TaskDiagram.Graph.Edit
import TaskDiagram.Graph.OfProgram
import TaskDiagram.Graph.OfWorkspace
import TaskDiagram.Graph.ToProgram
import TaskDiagram.Graph.ToWorkspace
import TaskDiagram.Graph.TopLevel
import TaskDiagram.Graph.Tree
import TaskDiagram.Graph.Validation
import TaskDiagram.Graph.Walk
import TaskDiagram.Json.Basic
import TaskDiagram.Json.Decode
import TaskDiagram.Json.Fields
import TaskDiagram.Json.Number
import TaskDiagram.Json.Printer
import TaskDiagram.Json.Reader
import TaskDiagram.Json.Shape
import TaskDiagram.Json.Skip
import TaskDiagram.KeyOrder
import TaskDiagram.Layout
import TaskDiagram.Library.Catalog
import TaskDiagram.Library.Item
import TaskDiagram.Library.Repair
import TaskDiagram.Library.Upkeep
import TaskDiagram.Main
import TaskDiagram.Moment
import TaskDiagram.Program.Basic
import TaskDiagram.Program.Document
import TaskDiagram.Program.Draft
import TaskDiagram.Program.Json
import TaskDiagram.Program.Merge
import TaskDiagram.Program.Schema
import TaskDiagram.Program.Shape
import TaskDiagram.Proofs.Decimal.Interval
import TaskDiagram.Proofs.Decimal.Product
import TaskDiagram.Proofs.Graph.Accounting
import TaskDiagram.Proofs.Graph.Chains
import TaskDiagram.Proofs.Graph.Clean
import TaskDiagram.Proofs.Graph.CleanRoots
import TaskDiagram.Proofs.Graph.Detaching
import TaskDiagram.Proofs.Graph.Edited
import TaskDiagram.Proofs.Graph.Edits
import TaskDiagram.Proofs.Graph.Fields
import TaskDiagram.Proofs.Graph.Findings
import TaskDiagram.Proofs.Graph.Isomorphism
import TaskDiagram.Proofs.Graph.Linking
import TaskDiagram.Proofs.Graph.Loading.Parts
import TaskDiagram.Proofs.Graph.Loading.Run
import TaskDiagram.Proofs.Graph.Reloaded
import TaskDiagram.Proofs.Graph.Removal
import TaskDiagram.Proofs.Graph.Renumbering
import TaskDiagram.Proofs.Graph.Resaving
import TaskDiagram.Proofs.Graph.Roles
import TaskDiagram.Proofs.Graph.Resemblance
import TaskDiagram.Proofs.Graph.RoundTrip
import TaskDiagram.Proofs.Graph.TopLevel
import TaskDiagram.Proofs.Json.Doubles
import TaskDiagram.Proofs.Json.Everywhere
import TaskDiagram.Proofs.Json.Fields
import TaskDiagram.Proofs.Json.Numerals
import TaskDiagram.Proofs.Json.Printed
import TaskDiagram.Proofs.Json.QuotedText
import TaskDiagram.Proofs.Json.Results
import TaskDiagram.Proofs.Library.Repair
import TaskDiagram.Proofs.Program.BothForms
import TaskDiagram.Proofs.Program.ControlChain
import TaskDiagram.Proofs.Program.ConversationForm
import TaskDiagram.Proofs.Program.Depth
import TaskDiagram.Proofs.Program.Leaves
import TaskDiagram.Proofs.Program.Merging
import TaskDiagram.Proofs.Program.Provenance
import TaskDiagram.Proofs.Program.Readable
import TaskDiagram.Proofs.Program.Readiness
import TaskDiagram.Proofs.Program.RoundTrip
import TaskDiagram.Proofs.Program.SilentLoading
import TaskDiagram.Proofs.Program.Stored
import TaskDiagram.Proofs.Program.StoredForm
import TaskDiagram.Proofs.Program.WellFormed
import TaskDiagram.Proofs.Service.Conversations
import TaskDiagram.Proofs.Service.Effects
import TaskDiagram.Proofs.Service.Readability
import TaskDiagram.Proofs.Service.Tasks
import TaskDiagram.Proofs.Session.Bus
import TaskDiagram.Proofs.Session.Conversation
import TaskDiagram.Proofs.Session.Mirror
import TaskDiagram.Proofs.Store.Rows
import TaskDiagram.Proofs.TextMap
import TaskDiagram.Proofs.Workspace.Accounting
import TaskDiagram.Proofs.Workspace.Document
import TaskDiagram.Proofs.Workspace.Fields
import TaskDiagram.Proofs.Workspace.Frames
import TaskDiagram.Proofs.Workspace.Numbering
import TaskDiagram.Proofs.Workspace.Reloading
import TaskDiagram.Proofs.Workspace.RoundTrip
import TaskDiagram.Proofs.Workspace.Silence
import TaskDiagram.Proofs.Workspace.Text
import TaskDiagram.Proofs.Workspace.Trees
import TaskDiagram.Service.Application
import TaskDiagram.Service.Error
import TaskDiagram.Service.Http
import TaskDiagram.Service.Request
import TaskDiagram.Service.RequestTarget
import TaskDiagram.Session.Bus
import TaskDiagram.Session.Conversation
import TaskDiagram.Session.Edit
import TaskDiagram.Session.Event
import TaskDiagram.Store.Database
import TaskDiagram.Store.Error
import TaskDiagram.Store.Nesting
import TaskDiagram.Store.Task
import TaskDiagram.Text.Blank
import TaskDiagram.Text.Combining
import TaskDiagram.Text.Emoji
import TaskDiagram.Text.Hex
import TaskDiagram.Text.Ligature
import TaskDiagram.Text.Lowercase
import TaskDiagram.Text.Printable
import TaskDiagram.Text.Quoted
import TaskDiagram.Text.Ranges
import TaskDiagram.Text.Table
import TaskDiagram.Text.Utf8
import TaskDiagram.Text.Width
import TaskDiagram.Toml.Number
import TaskDiagram.Toml.Reader
import TaskDiagram.Toml.Table
import TaskDiagram.Toml.Text
import TaskDiagram.Uuid
import TaskDiagram.Warning
import TaskDiagram.Workspace
import TaskDiagram.Yaml.Cursor
import TaskDiagram.Yaml.Document
import TaskDiagram.Yaml.Event
import TaskDiagram.Yaml.Plain
import TaskDiagram.Yaml.Scalar
import TaskDiagram.Yaml.Scanner
import TaskDiagram.Yaml.Tag
import TaskDiagram.Yaml.Token
import TaskDiagram.Proofs.Graph.Loading.Parts
import TaskDiagram.Proofs.Graph.Loading.Counts
import TaskDiagram.Proofs.Graph.Loading.Reports
import TaskDiagram.Proofs.Graph.Loading.Recording
import TaskDiagram.Proofs.Graph.Issuing
import TaskDiagram.Proofs.Library.Naming
import TaskDiagram.Proofs.Graph.Loading.Resolving
import TaskDiagram.Proofs.Workspace.Identifiers
import TaskDiagram.Proofs.Graph.Anchors
import TaskDiagram.Proofs.Graph.Loading.Anchors
import TaskDiagram.Proofs.Session.Warnings
import TaskDiagram.Proofs.Graph.Termination
import TaskDiagram.Proofs.Graph.Digraph
