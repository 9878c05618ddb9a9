import WorkflowEngine.Cancellation
import WorkflowEngine.Config
import WorkflowEngine.Context.Session
import WorkflowEngine.Context.Store
import WorkflowEngine.Definition
import WorkflowEngine.Definition.Error
import WorkflowEngine.Definition.FileName
import WorkflowEngine.Definition.Json
import WorkflowEngine.Definition.Parts
import WorkflowEngine.Definition.Validity
import WorkflowEngine.Definition.Yaml
import WorkflowEngine.Dispatcher
import WorkflowEngine.Engine
import WorkflowEngine.Event
import WorkflowEngine.Executor.Fetch
import WorkflowEngine.Executor.Group
import WorkflowEngine.Executor.Input
import WorkflowEngine.Executor.Prompt
import WorkflowEngine.Executor.Text
import WorkflowEngine.FanOut
import WorkflowEngine.Fault
import WorkflowEngine.Flow
import WorkflowEngine.Http.Address
import WorkflowEngine.Http.Domain
import WorkflowEngine.Http.Domain.Direction
import WorkflowEngine.Http.Domain.Excluded
import WorkflowEngine.Http.Domain.Folded
import WorkflowEngine.Http.Domain.Joining
import WorkflowEngine.Http.Request
import WorkflowEngine.Http.Url
import WorkflowEngine.Json.Draft
import WorkflowEngine.Json.Fragments
import WorkflowEngine.Json.Reader
import WorkflowEngine.Json.Text
import WorkflowEngine.LanguageModel
import WorkflowEngine.Number
import WorkflowEngine.Number.Double
import WorkflowEngine.Op
import WorkflowEngine.Op.Depth
import WorkflowEngine.Path
import WorkflowEngine.Proofs.Address
import WorkflowEngine.Proofs.Aliasing
import WorkflowEngine.Proofs.Approximation
import WorkflowEngine.Proofs.Binding
import WorkflowEngine.Proofs.Caution
import WorkflowEngine.Proofs.Caution.Engine
import WorkflowEngine.Proofs.Caution.Requests
import WorkflowEngine.Proofs.Comparison
import WorkflowEngine.Proofs.Conduct
import WorkflowEngine.Proofs.Course
import WorkflowEngine.Proofs.Course.Loop
import WorkflowEngine.Proofs.Drivers
import WorkflowEngine.Proofs.Encoding
import WorkflowEngine.Proofs.Events
import WorkflowEngine.Proofs.FanOut.InOrder
import WorkflowEngine.Proofs.FanOut.Load
import WorkflowEngine.Proofs.FanOut.Log
import WorkflowEngine.Proofs.FanOut.Parallel
import WorkflowEngine.Proofs.FanOut.Results
import WorkflowEngine.Proofs.FanOut.Rounds
import WorkflowEngine.Proofs.FanOut.Rule
import WorkflowEngine.Proofs.FanOut.Single
import WorkflowEngine.Proofs.FanOut.Stop
import WorkflowEngine.Proofs.FanOut.Traces
import WorkflowEngine.Proofs.FirstFault
import WorkflowEngine.Proofs.Gauge
import WorkflowEngine.Proofs.Gauge.Engine
import WorkflowEngine.Proofs.Gauge.FanOut
import WorkflowEngine.Proofs.Guard
import WorkflowEngine.Proofs.Guard.Engine
import WorkflowEngine.Proofs.Interleaving
import WorkflowEngine.Proofs.Interleaving.Branches
import WorkflowEngine.Proofs.Interleaving.Determinacy
import WorkflowEngine.Proofs.Interleaving.FanOut
import WorkflowEngine.Proofs.Interleaving.Frames
import WorkflowEngine.Proofs.Interleaving.Groups
import WorkflowEngine.Proofs.Interleaving.Increments
import WorkflowEngine.Proofs.Interleaving.Keys
import WorkflowEngine.Proofs.Interleaving.Meaning
import WorkflowEngine.Proofs.Interleaving.Reached
import WorkflowEngine.Proofs.Interleaving.Reaching
import WorkflowEngine.Proofs.Interleaving.Script
import WorkflowEngine.Proofs.Interleaving.Turns
import WorkflowEngine.Proofs.Isolation
import WorkflowEngine.Proofs.Isolation.Branches
import WorkflowEngine.Proofs.Isolation.Builtin
import WorkflowEngine.Proofs.Isolation.Engine
import WorkflowEngine.Proofs.Isolation.Groups
import WorkflowEngine.Proofs.Isolation.Hosting
import WorkflowEngine.Proofs.Isolation.Mirrors
import WorkflowEngine.Proofs.Isolation.Undisturbed
import WorkflowEngine.Proofs.Json.Acceptance
import WorkflowEngine.Proofs.Json.Fragments
import WorkflowEngine.Proofs.Json.Grammar
import WorkflowEngine.Proofs.Json.Grammar.Number
import WorkflowEngine.Proofs.Json.Grammar.Quote
import WorkflowEngine.Proofs.Json.Steps
import WorkflowEngine.Proofs.Judgement
import WorkflowEngine.Proofs.Judgement.FanOut
import WorkflowEngine.Proofs.Judgement.Group
import WorkflowEngine.Proofs.Judgement.Runner
import WorkflowEngine.Proofs.Library
import WorkflowEngine.Proofs.Mapping
import WorkflowEngine.Proofs.Monitor
import WorkflowEngine.Proofs.Monitor.Builtin
import WorkflowEngine.Proofs.Monitor.Engine
import WorkflowEngine.Proofs.Moves
import WorkflowEngine.Proofs.Nesting
import WorkflowEngine.Proofs.NullParams
import WorkflowEngine.Proofs.Parameters
import WorkflowEngine.Proofs.Placeholders
import WorkflowEngine.Proofs.Progress
import WorkflowEngine.Proofs.Progress.Calls
import WorkflowEngine.Proofs.ReadBack
import WorkflowEngine.Proofs.Reading
import WorkflowEngine.Proofs.Reading.Alike
import WorkflowEngine.Proofs.Reading.Frames
import WorkflowEngine.Proofs.Reading.Parts
import WorkflowEngine.Proofs.Reading.Runner
import WorkflowEngine.Proofs.Reading.Size
import WorkflowEngine.Proofs.Reading.Steps
import WorkflowEngine.Proofs.Replacement
import WorkflowEngine.Proofs.Resolution
import WorkflowEngine.Proofs.Serial
import WorkflowEngine.Proofs.SteadyStop
import WorkflowEngine.Proofs.StopRule
import WorkflowEngine.Proofs.Trace
import WorkflowEngine.Proofs.Unstopped
import WorkflowEngine.Proofs.Validity
import WorkflowEngine.Proofs.Validity.Leaves
import WorkflowEngine.Proofs.Validity.Run
import WorkflowEngine.Proofs.Width
import WorkflowEngine.Proofs.WriteSet
import WorkflowEngine.Record
import WorkflowEngine.Rehearsal.Executors
import WorkflowEngine.Rehearsal.Script
import WorkflowEngine.Runner
import WorkflowEngine.Template
import WorkflowEngine.Text.Blank
import WorkflowEngine.Text.Codes
import WorkflowEngine.Text.Cut
import WorkflowEngine.Text.Digits
import WorkflowEngine.Text.Printable
import WorkflowEngine.Text.Punycode
import WorkflowEngine.Text.Quoted
import WorkflowEngine.Text.Utf8
import WorkflowEngine.Value
import WorkflowEngine.Workflow
import WorkflowEngine.World
import WorkflowEngine.Yaml.Cursor
import WorkflowEngine.Yaml.Gap
import WorkflowEngine.Yaml.Node
import WorkflowEngine.Yaml.Node.Compose
import WorkflowEngine.Yaml.Reading
import WorkflowEngine.Yaml.Scalar.Block
import WorkflowEngine.Yaml.Scalar.Plain
import WorkflowEngine.Yaml.Scalar.Quoted
import WorkflowEngine.Yaml.Scalar.Typed
import WorkflowEngine.Yaml.Tag
import WorkflowEngine.Yaml.Token
import WorkflowEngine.Yaml.Token.Scan
