import Quorum.Address
import Quorum.Agenda
import Quorum.Bundle
import Quorum.Bytes
import Quorum.Bytes.Hex
import Quorum.Cluster
import Quorum.Command
import Quorum.Command.Execution
import Quorum.Conductor
import Quorum.Config
import Quorum.Config.Document
import Quorum.Connection
import Quorum.Counters
import Quorum.Digest.Blake3
import Quorum.Digest.Sha2
import Quorum.Disk
import Quorum.Double
import Quorum.Fault
import Quorum.Frame
import Quorum.Gate
import Quorum.Gate.Basic
import Quorum.Gate.Reminder
import Quorum.Link
import Quorum.Main
import Quorum.Node
import Quorum.Poll
import Quorum.PollBook
import Quorum.Proofs.Roster.Support
import Quorum.Proposal
import Quorum.Roster
import Quorum.Round
import Quorum.Service
import Quorum.Signing.Algorithm
import Quorum.Signing.Ed25519
import Quorum.Signing.Edwards
import Quorum.Signing.Key
import Quorum.Supermajority
import Quorum.Text.Blank
import Quorum.Text.Digit
import Quorum.Text.Json
import Quorum.Text.Parser
import Quorum.Text.Quoted
import Quorum.Text.Span
import Quorum.Text.Unprintable
import Quorum.Toml.Defect
import Quorum.Toml.Document
import Quorum.Toml.Lexeme
import Quorum.Toml.Record
import Quorum.Toml.Value
import Quorum.Turns
import Quorum.Vote
import Quorum.Wire
import Quorum.Word
import Quorum.Proofs.Poll.Counting
import Quorum.Proofs.Poll.Decision
import Quorum.Proofs.PollBook.Lookup
import Quorum.Proofs.PollBook.Arrival
import Quorum.Proofs.Gate.Discipline
import Quorum.Proofs.PollBook.Backing
import Quorum.Proofs.Gate.Backing
import Quorum.Proofs.Agreement.Round
import Quorum.Proofs.Agreement.Height
import Quorum.Proofs.PollBook.Growth
import Quorum.Proofs.PollBook.Account
import Quorum.Proofs.Gate.Run
import Quorum.Proofs.Gate.Recording
import Quorum.Proofs.Gate.Ballots
import Quorum.Proofs.Gate.Jurisdiction
import Quorum.Proofs.Cluster.Exchange
import Quorum.Proofs.Gate.Decisions
import Quorum.Proofs.Gate.Phases
import Quorum.Proofs.Conductor.Journey
import Quorum.Proofs.Conductor.Backing
import Quorum.Proofs.Conductor.Departure
import Quorum.Proofs.Gate.Stopping
import Quorum.Proofs.Agreement.CatchUp
import Quorum.Proofs.Gate.Refusals
import Quorum.Proofs.Gate.Courses
import Quorum.Proofs.Gate.Composition
import Quorum.Proofs.Gate.Poise
import Quorum.Proofs.Gate.Failures
import Quorum.Proofs.Gate.Debts
import Quorum.Proofs.Gate.Handover
import Quorum.Proofs.Gate.Provenance
import Quorum.Proofs.PollBook.Provenance
import Quorum.Proofs.Wire.Reading
import Quorum.Proofs.Frame.Stream
import Quorum.Proofs.Connection.Delivery
import Quorum.Proofs.Poll.Electorate
import Quorum.Proofs.Poll.Finality
import Quorum.Proofs.Poll.Certificate
import Quorum.Proofs.PollBook.Alternative
import Quorum.Proofs.Conductor.Overflow
import Quorum.Proofs.PollBook.Permanence
import Quorum.Proofs.Poll.Bookkeeping
import Quorum.Proofs.Poll.Redelivery
import Quorum.Proofs.Poll.Strangers
import Quorum.Proofs.PollBook.Window
import Quorum.Proofs.Gate.Retention
import Quorum.Proofs.Gate.Switches
import Quorum.Proofs.Roster.Construction
import Quorum.Proofs.Roster.Overlap
import Quorum.Proofs.Vote.SignedBytes
import Quorum.Proofs.PollBook.Independence
import Quorum.Proofs.Gate.Reminders
import Quorum.Proofs.Wire.Sizes
import Quorum.Proofs.Gate.FrameSizes
import Quorum.Proofs.Conductor.Participation
import Quorum.Proofs.Config.Validation
import Quorum.Proofs.Node.Operation
