import Countersign.Abi.Bridge
import Countersign.Abi.Encoding
import Countersign.Address
import Countersign.Attestation
import Countersign.Bytes
import Countersign.Calendar.Date
import Countersign.Calendar.Timestamp
import Countersign.CommandLine
import Countersign.Config.Basic
import Countersign.Config.Check
import Countersign.Config.Decoding
import Countersign.Config.Encoding
import Countersign.Confirm
import Countersign.Contract.Chain
import Countersign.Contract.Submission
import Countersign.Crypto.Aes
import Countersign.Crypto.Ecdsa
import Countersign.Crypto.Keccak
import Countersign.Crypto.Secp256k1
import Countersign.Crypto.Sha256
import Countersign.Crypto.Stretching
import Countersign.Digest
import Countersign.FailureClass
import Countersign.Json.Basic
import Countersign.Json.Fields
import Countersign.Json.Place
import Countersign.Json.Printer
import Countersign.Json.Reader
import Countersign.Json.Section
import Countersign.Keystore
import Countersign.Main
import Countersign.Metrics
import Countersign.Net.Endpoint
import Countersign.Net.SocketAddress
import Countersign.Net.Status
import Countersign.Net.WebUrl
import Countersign.Orchestrator.Config
import Countersign.Orchestrator.Error
import Countersign.Orchestrator.Process
import Countersign.Orchestrator.Service
import Countersign.Orchestrator.Workers
import Countersign.Program.Startup
import Countersign.Proofs.Abi.Layout
import Countersign.Proofs.Abi.Rows
import Countersign.Proofs.Attestation.Decoding
import Countersign.Proofs.Attestation.Making
import Countersign.Proofs.Attestation.Messages
import Countersign.Proofs.Calendar.DayNumber
import Countersign.Proofs.Calendar.Texts
import Countersign.Proofs.Contract.Receiving
import Countersign.Proofs.Json.Counts
import Countersign.Proofs.Json.RoundTrip
import Countersign.Proofs.Orchestrator.Backfilling
import Countersign.Proofs.Orchestrator.CatchingUp
import Countersign.Proofs.Orchestrator.Frame
import Countersign.Proofs.Orchestrator.Handover
import Countersign.Proofs.Orchestrator.Publishing
import Countersign.Proofs.Orchestrator.Reconnecting
import Countersign.Proofs.Orchestrator.Refusals
import Countersign.Proofs.Orchestrator.Requeueing
import Countersign.Proofs.Orchestrator.Shutdown
import Countersign.Proofs.Orchestrator.Skipping
import Countersign.Proofs.Record.Attestations
import Countersign.Proofs.Relayer.Cancelled
import Countersign.Proofs.Relayer.Heights
import Countersign.Proofs.Relayer.Pacing
import Countersign.Proofs.Relayer.Places
import Countersign.Proofs.Relayer.PriorValset
import Countersign.Proofs.Relayer.Progress
import Countersign.Proofs.Relayer.Questions
import Countersign.Proofs.Relayer.Slots
import Countersign.Proofs.Relayer.Submissions
import Countersign.Proofs.Routine.Course
import Countersign.Proofs.Routine.Ignoring
import Countersign.Proofs.Routine.RetryTimes
import Countersign.Proofs.Routine.Stopping
import Countersign.Proofs.Routine.Timing
import Countersign.Proofs.Signature.Decomposition
import Countersign.Proofs.Signature.Digests
import Countersign.Proofs.Signature.Signing
import Countersign.Proofs.Source.Following
import Countersign.Proofs.Store.Acceptance
import Countersign.Proofs.Store.Grammar
import Countersign.Proofs.Store.Insertion
import Countersign.Proofs.Store.Intersection
import Countersign.Proofs.Store.Key
import Countersign.Proofs.Store.LatestReads
import Countersign.Proofs.Store.Network
import Countersign.Proofs.Store.OncePerConfirm
import Countersign.Proofs.Store.PollTimes
import Countersign.Proofs.Store.Selection
import Countersign.Proofs.Store.Spelling
import Countersign.Proofs.Store.Transport
import Countersign.Proofs.Store.Verdicts
import Countersign.Proofs.Store.WriteRules
import Countersign.Proofs.Store.WrittenForm
import Countersign.Proofs.Text.Digits
import Countersign.Proofs.Traversal
import Countersign.Proofs.Valset.FirstMembers
import Countersign.Proofs.Valset.Threshold
import Countersign.Record.Decoding
import Countersign.Record.Encoding
import Countersign.Relayer.Config
import Countersign.Relayer.Error
import Countersign.Relayer.History
import Countersign.Relayer.Relay
import Countersign.Relayer.Slots
import Countersign.Retry
import Countersign.Routine.Basic
import Countersign.Routine.Request
import Countersign.Signature.Error
import Countersign.Signature.Identity
import Countersign.Signature.Recovery
import Countersign.Signature.Vrs
import Countersign.Simulation.Clock
import Countersign.Simulation.Play
import Countersign.Simulation.Schedule
import Countersign.Simulation.Shelf
import Countersign.Simulation.Source
import Countersign.Simulation.Step
import Countersign.Simulation.World
import Countersign.Source.Error
import Countersign.Source.Following
import Countersign.Source.Message
import Countersign.Source.Node
import Countersign.Source.Subscription
import Countersign.Store.Access
import Countersign.Store.Config
import Countersign.Store.Error
import Countersign.Store.Key
import Countersign.Store.Overlay
import Countersign.Store.Peers
import Countersign.Store.Quorum
import Countersign.Store.Replica
import Countersign.Store.Validation
import Countersign.Text.Duration
import Countersign.Text.Hex
import Countersign.Text.Printable
import Countersign.Text.Quoted
import Countersign.Valset
