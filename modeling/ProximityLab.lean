import ProximityLab.Campaign.Node
import ProximityLab.Campaign.Params
import ProximityLab.Campaign.Run
import ProximityLab.Campaign.Vigil
import ProximityLab.Cli.Arguments
import ProximityLab.Cli.Run
import ProximityLab.Cli.Usage
import ProximityLab.Configuration
import ProximityLab.Environment.Basic
import ProximityLab.Environment.Boards
import ProximityLab.Environment.Source
import ProximityLab.Environment.Variables
import ProximityLab.Epoch.Summary
import ProximityLab.Experiment.Run
import ProximityLab.FileSystem.Basic
import ProximityLab.FileSystem.Path
import ProximityLab.Http
import ProximityLab.Json.Basic
import ProximityLab.Json.Printer
import ProximityLab.Json.Reader
import ProximityLab.Json.Record
import ProximityLab.Main
import ProximityLab.Number.Binary64
import ProximityLab.Number.FloatReader
import ProximityLab.Number.FloatText
import ProximityLab.Number.Numeral
import ProximityLab.Number.Shortest
import ProximityLab.Provisioning.Fleet
import ProximityLab.Provisioning.Make
import ProximityLab.Provisioning.Tool
import ProximityLab.Script.Arithmetic
import ProximityLab.Script.Builtin
import ProximityLab.Script.Command
import ProximityLab.Script.Expansion
import ProximityLab.Script.Format
import ProximityLab.Script.Machine
import ProximityLab.Script.Pattern
import ProximityLab.Script.Reader
import ProximityLab.Script.Run
import ProximityLab.Session.Basic
import ProximityLab.Session.Commands
import ProximityLab.Snapshot.Basic
import ProximityLab.Snapshot.Log
import ProximityLab.Snapshot.Report
import ProximityLab.Snapshot.Store
import ProximityLab.Telemetry.Sample
import ProximityLab.Telemetry.Tag
import ProximityLab.Terminal.Basic
import ProximityLab.Terminal.Framer
import ProximityLab.Terminal.Repair
import ProximityLab.Terminal.Scripted
import ProximityLab.Testbed.Address
import ProximityLab.Testbed.Assignment
import ProximityLab.Testbed.Board
import ProximityLab.Testbed.Client
import ProximityLab.Testbed.Error
import ProximityLab.Testbed.Request
import ProximityLab.Testbed.Reservation
import ProximityLab.Text.Blank
import ProximityLab.Text.CharRange
import ProximityLab.Text.Encoding
import ProximityLab.Text.Lines
import ProximityLab.Text.Quoted
import ProximityLab.Text.Upper
import ProximityLab.Text.Utf8
import ProximityLab.Time.Calendar
import ProximityLab.Time.Span
import ProximityLab.Toml.Reader
import ProximityLab.Toml.Record
import ProximityLab.Toml.Table
import ProximityLab.Transcript
import ProximityLab.Yaml.Cursor
import ProximityLab.Yaml.Node
import ProximityLab.Yaml.ScalarText
import ProximityLab.Yaml.Token
import ProximityLab.Yaml.Value
import ProximityLab.Proofs.Session.Talk
import ProximityLab.Proofs.Campaign.Rounds
import ProximityLab.Proofs.Campaign.Timeline
import ProximityLab.Proofs.Campaign.Independence
import ProximityLab.Proofs.Campaign.Resolution
import ProximityLab.Proofs.Provisioning.Custody
import ProximityLab.Proofs.Experiment.Sync
import ProximityLab.Proofs.Experiment.TearDown
import ProximityLab.Proofs.Session.Reply
import ProximityLab.Proofs.Campaign.Prompted
import ProximityLab.Proofs.Experiment.LateReplies
import ProximityLab.Proofs.Provisioning.Terminals
import ProximityLab.Proofs.Number.Rounding
import ProximityLab.Proofs.Number.Shortest
import ProximityLab.Proofs.Number.Numeral
import ProximityLab.Proofs.Json.RoundTrip
import ProximityLab.Proofs.Json.Record
import ProximityLab.Proofs.Epoch.Summary
import ProximityLab.Proofs.Snapshot.Stored
import ProximityLab.Proofs.Snapshot.Log
import ProximityLab.Proofs.Text.Utf8
import ProximityLab.Proofs.Experiment.Cases
import ProximityLab.Proofs.FileSystem.Write
import ProximityLab.Proofs.Snapshot.Store
import ProximityLab.Proofs.Transcript
import ProximityLab.Proofs.Campaign.Records
import ProximityLab.Proofs.Experiment.Records
import ProximityLab.Proofs.Experiment.Reload
import ProximityLab.Proofs.Provisioning.Spares
import ProximityLab.Proofs.Experiment.DataFile
import ProximityLab.Proofs.Session.Says
import ProximityLab.Proofs.Campaign.Commands
import ProximityLab.Proofs.Provisioning.Journal
import ProximityLab.Proofs.Experiment.Commands
import ProximityLab.Proofs.Text.Lenient
import ProximityLab.Proofs.Text.Lines
import ProximityLab.Proofs.Text.Decoding
import ProximityLab.Proofs.Terminal.Chunks
import ProximityLab.Proofs.Terminal.Findings
import ProximityLab.Proofs.Testbed.Reservation
import ProximityLab.Proofs.Testbed.Assignment
import ProximityLab.Proofs.Testbed.Service
import ProximityLab.Proofs.Testbed.Lease
import ProximityLab.Proofs.Campaign.Life
import ProximityLab.Proofs.Provisioning.Output
import ProximityLab.Proofs.Provisioning.Registry
import ProximityLab.Proofs.Testbed.Polling
import ProximityLab.Proofs.Session.Command
import ProximityLab.Proofs.Session.Labels
import ProximityLab.Proofs.Session.Clock
import ProximityLab.Proofs.Session.Ledger
import ProximityLab.Proofs.Transcript.Grammar
import ProximityLab.Proofs.Testbed.Ranks
import ProximityLab.Proofs.Terminal.Repair
import ProximityLab.Proofs.Transcript.Parts
import ProximityLab.Proofs.Transcript.Written
import ProximityLab.Proofs.Telemetry.Measured
import ProximityLab.Proofs.Snapshot.Saves
import ProximityLab.Proofs.Testbed.Recognition
import ProximityLab.Proofs.Terminal.Prompts
import ProximityLab.Proofs.Provisioning.Names
import ProximityLab.Proofs.Environment.Boards
import ProximityLab.Proofs.Campaign.Arguments
import ProximityLab.Proofs.Number.Products
import ProximityLab.Proofs.Campaign.Timeout
import ProximityLab.Proofs.Time.Calendar
