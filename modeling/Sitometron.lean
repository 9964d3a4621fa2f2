import Sitometron.Lib.Bytes
import Sitometron.Lib.Utf8
import Sitometron.Lib.Eviction
import Sitometron.Lib.Json
import Sitometron.Lib.JsonReference
import Sitometron.Lib.Difference
import Sitometron.Lib.Ring
import Sitometron.Lib.Tally
import Sitometron.Lib.Desk
import Sitometron.Core.Types
import Sitometron.Core.Validation
import Sitometron.Core.Candidate
import Sitometron.Core.Reducer
import Sitometron.Proof.Core.Invariant
import Sitometron.Core.Contract
import Sitometron.Proof.Core.Contract.Agreement
import Sitometron.Proof.Core.Contract.Refinement
import Sitometron.Journal.Codec
import Sitometron.Proof.Journal.Emission
import Sitometron.Proof.Journal.Lexical
import Sitometron.Proof.Journal.Codec
import Sitometron.Journal.Replay
import Sitometron.Proof.Journal.Derivation
import Sitometron.Core.Timer
import Sitometron.Core.Orchestrator.Types
import Sitometron.Core.Orchestrator.Identity
import Sitometron.Lib.Wide
import Sitometron.Lib.Gregorian
import Sitometron.Lib.Radix
import Sitometron.Lib.Grammar
import Sitometron.Lib.Search
import Sitometron.Identity.SystemClock
import Sitometron.Proof.Identity.Scale
import Sitometron.Proof.Identity.Timestamp
import Sitometron.Http.Syntax
import Sitometron.Http.Chunks
import Sitometron.Http.Target
import Sitometron.Http.Header
import Sitometron.Proof.Http.SizeLine
import Sitometron.Proof.Http.Chunks
import Sitometron.Proof.Http.Header
import Sitometron.Proof.Http.ContentLength
import Sitometron.Proof.Http.Lines
import Sitometron.Proof.Http.Rebuild
import Sitometron.Core.Orchestrator.Pool
import Sitometron.Core.Orchestrator.Turn
import Sitometron.Core.Orchestrator.State
import Sitometron.Core.Orchestrator.Machine
import Sitometron.Proof.Orchestrator.Producers
import Sitometron.Proof.Orchestrator.Turns
import Sitometron.Proof.Orchestrator.Visible
import Sitometron.Proof.Orchestrator.Serving
import Sitometron.Proof.Orchestrator.Completion
import Sitometron.Proof.Orchestrator.Frames
import Sitometron.Proof.Orchestrator.Gates
import Sitometron.Proof.Orchestrator.Leases
import Sitometron.Proof.Orchestrator.Seats
import Sitometron.Proof.Orchestrator.Admissions
import Sitometron.Proof.Orchestrator.Tenancy
import Sitometron.Proof.Orchestrator.Decisions
import Sitometron.Proof.Orchestrator.Standing
import Sitometron.Proof.Orchestrator.Sealing
import Sitometron.Proof.Orchestrator.Seeding
import Sitometron.Proof.Orchestrator.Preparation
import Sitometron.Proof.Orchestrator.Residency
import Sitometron.Proof.Orchestrator.Courses
import Sitometron.Proof.Orchestrator.Orderly
import Sitometron.Proof.Orchestrator.Rounds
import Sitometron.Proof.Orchestrator.Accounts
import Sitometron.Proof.Orchestrator.Lasting
import Sitometron.Proof.Orchestrator.History
import Sitometron.Proof.Orchestrator.Generations
import Sitometron.Proof.Journal.Replay
import Sitometron.Proof.Journal.Normalization
import Sitometron.Journal.Segment
import Sitometron.Proof.Journal.Layout
import Sitometron.Proof.Journal.Ledger
import Sitometron.Proof.Journal.Pass
import Sitometron.Proof.Journal.Segment
import Sitometron.Proof.Journal.Capacity
import Sitometron.Journal.Maintenance
import Sitometron.Proof.Core.Closure
import Sitometron.Proof.Core.Effects
import Sitometron.Proof.Core.Completion
import Sitometron.Proof.Core.Timers
import Sitometron.Proof.Journal.Tail
import Sitometron.Proof.Journal.View
import Sitometron.Proof.Journal.Volume
import Sitometron.Proof.Journal.Archive
import Sitometron.Proof.Journal.Quarantine
import Sitometron.Proof.Journal.Suffix
import Sitometron.Proof.Journal.Prefix
import Sitometron.Proof.Journal.Startup
import Sitometron.Proof.Journal.Retained
import Sitometron.Proof.Journal.Prune
import Sitometron.Proof.Journal.Resume
import Sitometron.Proof.Journal.Names
import Sitometron.Proof.Journal.Pruned
import Sitometron.Proof.Journal.Spans
