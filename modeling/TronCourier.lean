import TronCourier.Abi.Encode
import TronCourier.Abi.Type
import TronCourier.Address
import TronCourier.Bytes
import TronCourier.CommandLine.Arguments
import TronCourier.CommandLine.Course
import TronCourier.CommandLine.Failure
import TronCourier.CommandLine.Lookup
import TronCourier.Curve.Secp256k1
import TronCourier.Curve.Signature
import TronCourier.Fee.Estimator
import TronCourier.Fee.Price
import TronCourier.Hash.Base58
import TronCourier.Hash.Hmac
import TronCourier.Hash.Keccak256
import TronCourier.Hash.Sha256
import TronCourier.Json.Parser
import TronCourier.Json.Printer
import TronCourier.Json.Record
import TronCourier.Json.Value
import TronCourier.Keystore
import TronCourier.Main
import TronCourier.Manager.Broadcast
import TronCourier.Manager.Confirm
import TronCourier.Manager.Endpoint
import TronCourier.Manager.Event
import TronCourier.Manager.Lifecycle
import TronCourier.Manager.Phase
import TronCourier.Manager.State
import TronCourier.Manager.Submission
import TronCourier.Manager.Surroundings
import TronCourier.Metrics
import TronCourier.Node.Answer
import TronCourier.Node.Client
import TronCourier.Node.Message
import TronCourier.Node.Service
import TronCourier.Number.Binary64
import TronCourier.Number.Bounds
import TronCourier.Number.Decimal
import TronCourier.Proofs.Abi.Capacity
import TronCourier.Proofs.Abi.Decode
import TronCourier.Proofs.Abi.Grammar
import TronCourier.Proofs.Abi.Meaning
import TronCourier.Proofs.Abi.Numeral
import TronCourier.Proofs.Abi.RoundTrip
import TronCourier.Proofs.Abi.Signed
import TronCourier.Proofs.Abi.Unsigned
import TronCourier.Proofs.Abi.Word
import TronCourier.Proofs.Address
import TronCourier.Proofs.Curve.Group
import TronCourier.Proofs.Curve.Primes
import TronCourier.Proofs.Curve.Recovery
import TronCourier.Proofs.Except
import TronCourier.Proofs.Fee.Exchange
import TronCourier.Proofs.Fee.Latch
import TronCourier.Proofs.Fee.Price
import TronCourier.Proofs.Hash.Base58
import TronCourier.Proofs.Json.Reordered
import TronCourier.Proofs.Keystore
import TronCourier.Proofs.Manager.Acceptance
import TronCourier.Proofs.Manager.Admission
import TronCourier.Proofs.Manager.Agenda
import TronCourier.Proofs.Manager.Attempts
import TronCourier.Proofs.Manager.Budget
import TronCourier.Proofs.Manager.Closure
import TronCourier.Proofs.Manager.Copies
import TronCourier.Proofs.Manager.Course
import TronCourier.Proofs.Manager.Custody
import TronCourier.Proofs.Manager.Deeds
import TronCourier.Proofs.Manager.Effect
import TronCourier.Proofs.Manager.Expiry
import TronCourier.Proofs.Manager.Figures
import TronCourier.Proofs.Manager.Finality
import TronCourier.Proofs.Manager.Idempotence
import TronCourier.Proofs.Manager.Intake
import TronCourier.Proofs.Manager.Launch
import TronCourier.Proofs.Manager.Ledger
import TronCourier.Proofs.Manager.Lookup
import TronCourier.Proofs.Manager.Mailing
import TronCourier.Proofs.Manager.Order
import TronCourier.Proofs.Manager.Outlook
import TronCourier.Proofs.Manager.Pass
import TronCourier.Proofs.Manager.Passage
import TronCourier.Proofs.Manager.Policy
import TronCourier.Proofs.Manager.Poll
import TronCourier.Proofs.Manager.Rehearsal
import TronCourier.Proofs.Manager.Rejection
import TronCourier.Proofs.Manager.Rounds
import TronCourier.Proofs.Manager.Separation
import TronCourier.Proofs.Manager.Shutdown
import TronCourier.Proofs.Manager.Sightings
import TronCourier.Proofs.Manager.System
import TronCourier.Proofs.Manager.Tenure
import TronCourier.Proofs.Manager.Touch
import TronCourier.Proofs.Node.Message
import TronCourier.Proofs.Settings.Override
import TronCourier.Proofs.Store.Change
import TronCourier.Proofs.Store.Consistent
import TronCourier.Proofs.Store.Eviction
import TronCourier.Proofs.Store.Operation
import TronCourier.Proofs.Store.Refusal
import TronCourier.Proofs.Store.Registry
import TronCourier.Proofs.Store.Rows
import TronCourier.Proofs.Store.Tally
import TronCourier.Proofs.Store.Terminal
import TronCourier.Proofs.Store.Union
import TronCourier.Proofs.Text.Hex
import TronCourier.Proofs.Text.Trim
import TronCourier.Proofs.Transaction.Mirror
import TronCourier.Proofs.Transaction.ReadBack
import TronCourier.Proofs.Wire.Decode
import TronCourier.Proofs.Wire.Lossless
import TronCourier.Settings.Basic
import TronCourier.Settings.Document
import TronCourier.Settings.EnvFile
import TronCourier.Simulation.Chain
import TronCourier.Simulation.Clockwork
import TronCourier.Simulation.Plain
import TronCourier.Simulation.Scripted
import TronCourier.Simulation.Session
import TronCourier.Simulation.World
import TronCourier.Store.Accounts
import TronCourier.Store.Store
import TronCourier.Store.Table
import TronCourier.Text.Alphanumeric
import TronCourier.Text.Blank
import TronCourier.Text.Hex
import TronCourier.Text.Integer
import TronCourier.Text.Quoted
import TronCourier.Text.Utf8
import TronCourier.Text.Visible
import TronCourier.Toml.Document
import TronCourier.Toml.Parser
import TronCourier.Toml.Scalar
import TronCourier.Transaction.Build
import TronCourier.Transaction.Json
import TronCourier.Tx.FreshId
import TronCourier.Tx.Outcome
import TronCourier.Tx.Request
import TronCourier.Tx.Stage
import TronCourier.Wire.Format
import TronCourier.Wire.Message
