import Quorum.Check.Field
import Quorum.Check.Issue
import Quorum.Command.Order
import Quorum.Command.Session
import Quorum.Command.Words
import Quorum.Consensus.Evaluation
import Quorum.Consensus.Verdict
import Quorum.Decimal.Shortest
import Quorum.Decimal.Numeral
import Quorum.Decimal.Style
import Quorum.Definition.AgentEntry
import Quorum.Definition.Fleet
import Quorum.Definition.Level
import Quorum.Display
import Quorum.Document.Conversion
import Quorum.Document.Datum
import Quorum.Document.FileTree
import Quorum.Fault
import Quorum.Fleet.Declaration
import Quorum.Fleet.Spec
import Quorum.Log
import Quorum.Main
import Quorum.Moment
import Quorum.Prompt
import Quorum.Proofs.Check.Passed
import Quorum.Proofs.Consensus.Ballots
import Quorum.Proofs.Consensus.Conservation
import Quorum.Proofs.Consensus.Groups
import Quorum.Proofs.Consensus.Weights
import Quorum.Proofs.Consensus.Winner
import Quorum.Proofs.Decimal.Nearest
import Quorum.Proofs.Decimal.NumberShape
import Quorum.Proofs.Decimal.NumberText
import Quorum.Proofs.Definition.Failures
import Quorum.Proofs.Definition.Levels
import Quorum.Proofs.Fleet.Coherent
import Quorum.Proofs.Fleet.Plan
import Quorum.Proofs.Fleet.Valid
import Quorum.Proofs.Order
import Quorum.Proofs.Run.Abreast
import Quorum.Proofs.Run.Announced
import Quorum.Proofs.Run.Approved
import Quorum.Proofs.Run.Attempts
import Quorum.Proofs.Run.Calls
import Quorum.Proofs.Run.Classified
import Quorum.Proofs.Run.Course
import Quorum.Proofs.Run.FirstSuccess
import Quorum.Proofs.Run.Instants
import Quorum.Proofs.Run.Isolated
import Quorum.Proofs.Run.Ledger
import Quorum.Proofs.Run.Lockstep
import Quorum.Proofs.Run.Onward
import Quorum.Proofs.Run.Progress
import Quorum.Proofs.Run.Recounted
import Quorum.Proofs.Run.Reported
import Quorum.Proofs.Run.Results
import Quorum.Proofs.Run.ScheduleFree
import Quorum.Proofs.Run.Sequence
import Quorum.Proofs.Run.Silent
import Quorum.Proofs.Run.Steps
import Quorum.Proofs.Run.TierEnds
import Quorum.Proofs.Run.Truncated
import Quorum.Proofs.Run.Turns
import Quorum.Proofs.Run.Undisturbed
import Quorum.Proofs.Service.Answers
import Quorum.Proofs.Service.Fences
import Quorum.Proofs.Service.Retries
import Quorum.Proofs.Service.Script
import Quorum.Proofs.Settings.Accepted
import Quorum.Proofs.Value.CanonicalKey
import Quorum.Proofs.Value.CanonicalText
import Quorum.Proofs.Value.Entries
import Quorum.Proofs.Value.QuotedText
import Quorum.Proofs.Value.ReadBack
import Quorum.Proofs.Value.Same
import Quorum.Report.Basic
import Quorum.Report.Export
import Quorum.Report.Record
import Quorum.Run.Behaviour
import Quorum.Run.Context
import Quorum.Run.Event
import Quorum.Run.FleetRun
import Quorum.Run.Schedule
import Quorum.Run.Tier
import Quorum.Run.Watched
import Quorum.Service.Content
import Quorum.Service.Completion
import Quorum.Service.Dealing
import Quorum.Service.Exchange
import Quorum.Settings.Basic
import Quorum.Settings.EnvFile
import Quorum.Text.Quoted
import Quorum.Text.Basic
import Quorum.Text.Case
import Quorum.Text.Utf8
import Quorum.Value.Basic
import Quorum.Value.Printer
import Quorum.Value.Reader
import Quorum.Vocabulary
import Quorum.Yaml.Content
import Quorum.Yaml.Lexeme
import Quorum.Yaml.Node
import Quorum.Yaml.Problem
import Quorum.Yaml.Scalar
import Quorum.Yaml.Source
import Quorum.Yaml.Tag
import Quorum.Yaml.Token
import Quorum.Proofs.Consensus.Ranked
import Quorum.Proofs.Consensus.Exact
import Quorum.Proofs.Consensus.Majority
import Quorum.Proofs.Consensus.Weighted
import Quorum.Proofs.Consensus.Agreement
import Quorum.Proofs.Consensus.Gains
import Quorum.Proofs.Check.Mappings
import Quorum.Proofs.Consensus.Thresholds
import Quorum.Proofs.Decimal.Doubles
import Quorum.Proofs.Fleet.Fields
import Quorum.Proofs.Fleet.Weights
import Quorum.Proofs.Run.Scores
import Quorum.Proofs.Definition.Layers
import Quorum.Proofs.Run.Places
import Quorum.Proofs.Definition.Parts
import Quorum.Proofs.Definition.Specific
import Quorum.Proofs.Definition.Verbatim
import Quorum.Proofs.Definition.Respelled
import Quorum.Proofs.Document.Spelling
import Quorum.Proofs.Run.Deadlines
import Quorum.Proofs.Run.Forwarded
import Quorum.Proofs.Report.Lines
import Quorum.Proofs.Command.ExitCode
