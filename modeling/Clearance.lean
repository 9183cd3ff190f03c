import Clearance.Act
import Clearance.Cache.Containers
import Clearance.Cache.Lru
import Clearance.Cancellation
import Clearance.Context
import Clearance.Definition.Basic
import Clearance.Definition.Order
import Clearance.Definition.Registry
import Clearance.Definition.Wire
import Clearance.Definition.Yaml
import Clearance.Engine.Basic
import Clearance.Engine.Consumer
import Clearance.Engine.Creation
import Clearance.Engine.Progress
import Clearance.Failure
import Clearance.Faults
import Clearance.Files
import Clearance.Http.MediaType
import Clearance.Http.Message
import Clearance.Http.Route
import Clearance.Http.Service
import Clearance.Ids
import Clearance.Json.Document
import Clearance.Json.Reader
import Clearance.Json.Value
import Clearance.Json.Writer
import Clearance.Mailbox
import Clearance.Metrics
import Clearance.Number.Double
import Clearance.Number.Reading
import Clearance.Number.Shortest
import Clearance.Proofs.Act
import Clearance.Proofs.Cache.Containers
import Clearance.Proofs.Cache.Lru
import Clearance.Proofs.Cache.Tidy
import Clearance.Proofs.Cancellation
import Clearance.Proofs.Definition.Cycles
import Clearance.Proofs.Definition.Order
import Clearance.Proofs.Definition.RoundTrip
import Clearance.Proofs.Definition.Sort
import Clearance.Proofs.Definition.Validate
import Clearance.Proofs.Engine.Accounts
import Clearance.Proofs.Engine.Agreement
import Clearance.Proofs.Engine.Branch
import Clearance.Proofs.Engine.Cancelled
import Clearance.Proofs.Engine.Confluence
import Clearance.Proofs.Engine.Conservation
import Clearance.Proofs.Engine.Course
import Clearance.Proofs.Engine.Creation
import Clearance.Proofs.Engine.Decision
import Clearance.Proofs.Engine.Drain
import Clearance.Proofs.Engine.Effect
import Clearance.Proofs.Engine.Founding
import Clearance.Proofs.Engine.Gate
import Clearance.Proofs.Engine.Handle
import Clearance.Proofs.Engine.Inception
import Clearance.Proofs.Engine.Isolation
import Clearance.Proofs.Engine.Lag
import Clearance.Proofs.Engine.Layered
import Clearance.Proofs.Engine.Liveness
import Clearance.Proofs.Engine.Mirror
import Clearance.Proofs.Engine.Onward
import Clearance.Proofs.Engine.Overlay
import Clearance.Proofs.Engine.Pending
import Clearance.Proofs.Engine.Propagation
import Clearance.Proofs.Engine.Refusal
import Clearance.Proofs.Engine.Registration
import Clearance.Proofs.Engine.Restart
import Clearance.Proofs.Engine.Run
import Clearance.Proofs.Engine.Stage
import Clearance.Proofs.Engine.Status
import Clearance.Proofs.Engine.Tolerance
import Clearance.Proofs.Engine.Transparency
import Clearance.Proofs.Engine.Unlock
import Clearance.Proofs.Json.Canonical
import Clearance.Proofs.Tables
import Clearance.Proofs.Task.Accounts
import Clearance.Proofs.Task.Activated
import Clearance.Proofs.Task.Announced
import Clearance.Proofs.Task.Bench
import Clearance.Proofs.Task.Benchwork
import Clearance.Proofs.Task.Cancelled
import Clearance.Proofs.Task.Fork
import Clearance.Proofs.Task.History
import Clearance.Proofs.Task.Inquiry
import Clearance.Proofs.Task.Legal
import Clearance.Proofs.Task.Mailroom
import Clearance.Proofs.Task.Opening
import Clearance.Proofs.Task.Restart
import Clearance.Proofs.Task.Spent
import Clearance.Proofs.Task.Stage
import Clearance.Proofs.Task.Staging
import Clearance.Proofs.Task.Submission
import Clearance.Proofs.Task.Transparency
import Clearance.Proofs.Task.Twin
import Clearance.Proofs.Task.Undone
import Clearance.Proofs.Task.Workshop
import Clearance.Proofs.Wire.Record
import Clearance.Proofs.Wire.RoundTrip
import Clearance.Proofs.Workflow.Advance
import Clearance.Proofs.Workflow.Calls
import Clearance.Proofs.Workflow.Confluence
import Clearance.Proofs.Workflow.Isolation
import Clearance.Proofs.Workflow.Settle
import Clearance.Proofs.Workflow.Snapshot
import Clearance.Proofs.Workflow.Store
import Clearance.Proofs.Yaml.Canonical
import Clearance.Proofs.Yaml.Faithful
import Clearance.Settings.Basic
import Clearance.Settings.Setting
import Clearance.Settings.Sources
import Clearance.States
import Clearance.Table
import Clearance.Task.Agency
import Clearance.Task.Bench
import Clearance.Task.Event
import Clearance.Task.Form
import Clearance.Task.Plugin
import Clearance.Task.Record
import Clearance.Task.Response
import Clearance.Task.Script
import Clearance.Task.Store
import Clearance.Task.Url
import Clearance.Task.Workshop
import Clearance.Text.Blank
import Clearance.Text.Percent
import Clearance.Text.Quoted
import Clearance.Text.Upper
import Clearance.Text.Visible
import Clearance.Toml.Basic
import Clearance.Toml.Reader
import Clearance.Wire.Decoder
import Clearance.Wire.Names
import Clearance.Wire.Time
import Clearance.Workflow.Node
import Clearance.Workflow.Projection
import Clearance.Workflow.Snapshot
import Clearance.Workflow.Store
import Clearance.Yaml.Core
import Clearance.Yaml.Glyph
import Clearance.Yaml.Lexer
import Clearance.Yaml.Node
import Clearance.Yaml.Scalar
import Clearance.Yaml.Token
import Clearance.Yaml.Writer
