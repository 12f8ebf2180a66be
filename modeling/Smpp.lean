import Smpp.GatewayError
import Smpp.Handler.Progress
import Smpp.Text.Hex
import Smpp.Timeline.Desk
import Smpp.Timeline.Floor
import Smpp.Coordinator
import Smpp.Worker.Process
import Smpp.Timeline.Fleet
import Smpp.CommandLine
import Smpp.Main
import Smpp.Proofs.Wire.Text
import Smpp.Proofs.Wire.Fields
import Smpp.Proofs.Wire.Regions
import Smpp.Proofs.Wire.Bodies
import Smpp.Proofs.Wire.Frames
import Smpp.Proofs.Wire.RoundTrip
import Smpp.Proofs.Wire.Canonical
import Smpp.Proofs.Session.Accounting
import Smpp.Proofs.Session.Correlation
import Smpp.Proofs.Session.Ledger
import Smpp.Proofs.Connection.Reassembly
import Smpp.Proofs.Session.Lifecycle
import Smpp.Proofs.Session.Admission
import Smpp.Proofs.Session.Window
import Smpp.Proofs.Wire.Confinement
import Smpp.Proofs.Handler.Steps
import Smpp.Proofs.Handler.Clock
import Smpp.Proofs.Handler.Runs
import Smpp.Proofs.Handler.Speech
import Smpp.Proofs.Handler.Due
import Smpp.Proofs.Handler.Output
import Smpp.Proofs.Handler.Wakeup
import Smpp.Proofs.Handler.Writing
import Smpp.Proofs.Handler.Attempts
import Smpp.Proofs.Handler.Binding
import Smpp.Proofs.Floor.Rest
import Smpp.Proofs.Floor.Account
import Smpp.Proofs.Floor.Stopping
import Smpp.Proofs.Worker.Interleaving
import Smpp.Proofs.Worker.Trace
import Smpp.Proofs.Handler.Silence
import Smpp.Proofs.Link.Steps
import Smpp.Proofs.Link.Silence
import Smpp.Proofs.Floor.Silence
import Smpp.Proofs.Floor.Isolation
import Smpp.Proofs.Control.Lines
import Smpp.Proofs.Supervisor.Slot
import Smpp.Proofs.Coordinator.Fleet
import Smpp.Proofs.Coordinator.StartAndStop
import Smpp.Proofs.Wire.Writers
import Smpp.Proofs.Session.Table
import Smpp.Proofs.Wire.Forms
import Smpp.Proofs.Wire.Grammar
import Smpp.Proofs.Wire.ParameterMap
import Smpp.Proofs.Wire.Boundaries
import Smpp.Proofs.Wire.Headers
import Smpp.Proofs.Handler.Naming
import Smpp.Proofs.Session.Responses
import Smpp.Proofs.Wire.Leftovers
import Smpp.Proofs.Control.Classification
import Smpp.Proofs.Supervisor.Pings
import Smpp.Proofs.Coordinator.Sessions
import Smpp.Proofs.Worker.Report
import Smpp.Proofs.Backend.Identifiers
import Smpp.Proofs.Backend.Store
import Smpp.Proofs.Wire.Strings
import Smpp.Proofs.Session.Horizon
import Smpp.Proofs.Coordinator.Horizon
