import Fleet.Bits
import Fleet.Bridge.Core
import Fleet.Bridge.Line
import Fleet.Bridge.Link
import Fleet.Bridge.Runner
import Fleet.Bridge.Sdk
import Fleet.Control.Chat
import Fleet.Control.Connections
import Fleet.Control.Hub
import Fleet.Control.Plane
import Fleet.Control.Reports
import Fleet.Control.Resume
import Fleet.Control.Router
import Fleet.Control.Socket
import Fleet.Decimal.Shortest
import Fleet.Disk
import Fleet.Error
import Fleet.Event
import Fleet.Feed.Channel
import Fleet.Feed.Relay
import Fleet.Frame.Basic
import Fleet.Frame.Text
import Fleet.Graph.Checkpoint
import Fleet.Graph.Node
import Fleet.Graph.Session
import Fleet.Graph.State
import Fleet.Http.Endpoint
import Fleet.Http.MediaType
import Fleet.Http.Message
import Fleet.Http.Origins
import Fleet.Http.Service
import Fleet.Json.Basic
import Fleet.Json.Document
import Fleet.Json.Numeral
import Fleet.Json.Printer
import Fleet.Json.Reader
import Fleet.Json.Stream
import Fleet.Machine.Client
import Fleet.Machine.Reconnect
import Fleet.Main
import Fleet.Method
import Fleet.Proofs.Control.Answers
import Fleet.Proofs.Control.Errands
import Fleet.Proofs.Control.Greeting
import Fleet.Proofs.Control.Hearing
import Fleet.Proofs.Control.Isolation
import Fleet.Proofs.Control.Lines
import Fleet.Proofs.Control.Machines
import Fleet.Proofs.Control.Replies
import Fleet.Proofs.Control.Streams
import Fleet.Proofs.Control.Teardown
import Fleet.Proofs.Control.Turns
import Fleet.Proofs.Control.Visits
import Fleet.Proofs.Feed.Relay
import Fleet.Proofs.Frame.Carried
import Fleet.Proofs.Frame.RoundTrip
import Fleet.Proofs.Json.Reading
import Fleet.Proofs.Json.Records
import Fleet.Proofs.Json.Scanning
import Fleet.Proofs.Json.Values
import Fleet.Proofs.Machine.Calls
import Fleet.Proofs.Vm.Access
import Fleet.Proofs.Vm.Attempts
import Fleet.Proofs.Vm.Change
import Fleet.Proofs.Vm.History
import Fleet.Proofs.Vm.Lone
import Fleet.Proofs.Vm.Operations
import Fleet.Proofs.Vm.Runs
import Fleet.Proofs.Vm.Tickets
import Fleet.Proofs.Vm.Writes
import Fleet.Proofs.Wire.Net
import Fleet.Proofs.Wire.Requests
import Fleet.Session.Command
import Fleet.Session.Manager
import Fleet.Settings.ControlPlane
import Fleet.Settings.Hcl.Body
import Fleet.Settings.Hcl.Term
import Fleet.Settings.Hcl.Token
import Fleet.Settings.Loading
import Fleet.Settings.Machine
import Fleet.Settings.Numbers
import Fleet.Simulation.Bridge
import Fleet.Simulation.Channel
import Fleet.Simulation.Client
import Fleet.Simulation.Clockwork
import Fleet.Simulation.Connections
import Fleet.Simulation.ControlPlane
import Fleet.Simulation.Graph
import Fleet.Simulation.Names
import Fleet.Simulation.Scheduler
import Fleet.Simulation.Sessions
import Fleet.Simulation.Sinks
import Fleet.Text.Alphanumeric
import Fleet.Text.Blank
import Fleet.Text.Case
import Fleet.Text.Escape
import Fleet.Text.Identifier
import Fleet.Text.Lines
import Fleet.Text.Ranges
import Fleet.Text.Utf8
import Fleet.Time.Instant
import Fleet.Time.Reading
import Fleet.Token.Base64Url
import Fleet.Token.Key
import Fleet.Token.Registered
import Fleet.Token.Sha256
import Fleet.Token.Signed
import Fleet.Vm.Database
import Fleet.Vm.Launch
import Fleet.Vm.Locks
import Fleet.Vm.Row
import Fleet.Vm.Scheduler
import Fleet.Vm.Store
import Fleet.Proofs.Bridge.Lines
import Fleet.Proofs.Control.Window
import Fleet.Proofs.Graph.Steps
import Fleet.Proofs.Session.Adapters
import Fleet.Proofs.Session.Station
import Fleet.Proofs.Session.Seats
import Fleet.Proofs.Session.Single
import Fleet.Proofs.Graph.Course
import Fleet.Proofs.Graph.Story
import Fleet.Proofs.Text.Utf8
import Fleet.Proofs.Graph.Bytes
import Fleet.Proofs.Graph.Contents
import Fleet.Proofs.Graph.Restart
import Fleet.Proofs.Control.Inquiries
import Fleet.Proofs.Control.Settling
import Fleet.Proofs.Machine.Queueing
import Fleet.Proofs.Machine.Resuming
import Fleet.Proofs.Time.Calendar
import Fleet.Proofs.Time.Texts
import Fleet.Proofs.Time.Reading
import Fleet.Proofs.Vm.Columns
import Fleet.Proofs.Vm.Keepings
import Fleet.Proofs.Bridge.Moves
import Fleet.Proofs.Bridge.Watching
import Fleet.Proofs.Vm.Confined
import Fleet.Proofs.Vm.Launching
import Fleet.Proofs.Vm.Spacing
import Fleet.Proofs.Vm.Isolation
import Fleet.Proofs.Control.Ownership
import Fleet.Proofs.Vm.Rebuilding
import Fleet.Proofs.Vm.Storing
import Fleet.Proofs.Vm.Foremost
import Fleet.Proofs.Vm.Timeouts
import Fleet.Proofs.Vm.Hints
import Fleet.Proofs.Vm.Patrols
import Fleet.Proofs.Control.Readiness
import Fleet.Proofs.Feed.Fanout
import Fleet.Proofs.Control.Serving
import Fleet.Proofs.Control.Conversation
import Fleet.Proofs.Control.Airing
import Fleet.Proofs.Control.Browsing
import Fleet.Proofs.Control.Keeping
import Fleet.Proofs.Control.Rounds
import Fleet.Proofs.Control.Ledger
import Fleet.Proofs.Graph.Interruption
import Fleet.Proofs.Control.Admission
import Fleet.Proofs.Control.Silence
import Fleet.Proofs.Control.Searching
import Fleet.Proofs.Session.Scope
import Fleet.Proofs.Bridge.Calls
import Fleet.Proofs.Bridge.Linking
import Fleet.Proofs.Session.Acknowledging
import Fleet.Proofs.Machine.Pauses
import Fleet.Proofs.Control.Heartbeats
import Fleet.Proofs.Disk.Confined
import Fleet.Proofs.Disk.Joined
import Fleet.Proofs.Graph.Confined
import Fleet.Proofs.Graph.Names
import Fleet.Proofs.Http.Paths
import Fleet.Proofs.Vm.Locks
import Fleet.Proofs.Session.Directories
import Fleet.Proofs.Control.Refusals
