import Mathlib.Data.Fintype.Defs
import Mathlib.Tactic.Tauto
import Sitometron.Core.Reducer
import Sitometron.Core.Timer

/-!
# The vocabulary of the writer

The types of `job_orchestrator.hpp` and of `JobOrchestrator::Impl`. Counters and switches that only tests read, callback
controls and checkpoints are left out. A sequence or serial that has run out is 0, as in the source.
-/

namespace Sitometron.Core.Orchestrator

/-- The largest value of `std::uint64_t` and of `std::size_t`. -/
def uint64Max : Nat := 2 ^ 64 - 1

def following (n : Nat) : Nat := if n = uint64Max then 0 else n + 1

/-! ## Configuration -/

structure Config where
  maxJobs : Nat
  normalCapacity : Nat
  traceCapacity : Nat
  completionCapacity : Nat
  handoffCapacity : Nat
  ackCapacity : Nat
  callbackRegistrationCapacity : Nat
  initialIngressSequence : Nat := 1
  initialJournalSequence : UInt64 := 1
  replayedJobs : List Snapshot := []
  unresolvedJobs : List Uuid := []
  replayedCreatedSequences : List UInt64 := []

namespace Config

def criticalReserve (c : Config) : Nat :=
  if c.maxJobs > (uint64Max - 1) / 9 - 1 then 0 else 9 * (c.maxJobs + 1) + 1

def totalCapacity (c : Config) : Nat :=
  if c.criticalReserve = 0 then 0
  else if c.criticalReserve > uint64Max - c.normalCapacity then 0
  else c.normalCapacity + c.criticalReserve

/-- What the constructor does not throw on; the ports are there. -/
def isValid (c : Config) : Bool :=
  !(c.maxJobs = 0 || c.normalCapacity = 0 || c.criticalReserve = 0 || c.totalCapacity = 0 || c.traceCapacity = 0 ||
    c.completionCapacity < c.totalCapacity || c.traceCapacity < c.totalCapacity || c.traceCapacity < 14 ||
    c.handoffCapacity < 4 || c.ackCapacity < c.maxJobs || c.ackCapacity < 1 || c.callbackRegistrationCapacity < 2 ||
    c.initialIngressSequence = 0 || c.initialJournalSequence = 0)

end Config

/-- A configuration that the constructor accepts, with its fields in the range of their types. -/
structure Setup extends Config where
  valid : toConfig.isValid = true
  inRange : maxJobs ≤ uint64Max ∧ normalCapacity ≤ uint64Max ∧ initialIngressSequence ≤ uint64Max

theorem Setup.facts (c : Setup) : c.maxJobs ≠ 0 ∧ c.normalCapacity ≠ 0 ∧ c.criticalReserve ≠ 0 ∧ c.totalCapacity ≠ 0 ∧
    c.totalCapacity ≤ c.completionCapacity ∧ c.totalCapacity ≤ c.traceCapacity ∧ 14 ≤ c.traceCapacity ∧
    4 ≤ c.handoffCapacity ∧ c.initialIngressSequence ≠ 0 ∧ c.initialJournalSequence ≠ 0 := by
  have valid := c.valid
  simp only [Config.isValid, Bool.not_eq_true', Bool.or_eq_false_iff, decide_eq_false_iff_not, not_lt] at valid
  tauto

abbrev Slot (c : Setup) := Fin (c.maxJobs + 1)

/-! ## Gates -/

inductive Mode where
  | running | quiescing | draining | sealed | stopped
deriving DecidableEq, Repr

inductive GateKind where
  | terminate | preparationTimer | executionTimer | cooperativeStopTimer | processExitTimer
  | worker | processExit | resourcesReleased | cleanup
deriving DecidableEq, Repr

namespace GateKind

def all : List GateKind :=
  [.terminate, .preparationTimer, .executionTimer, .cooperativeStopTimer, .processExitTimer, .worker, .processExit,
    .resourcesReleased, .cleanup]

instance : Fintype GateKind := ⟨⟨all, by decide⟩, fun kind => by cases kind <;> decide⟩

def isTimer : GateKind → Bool
  | .preparationTimer | .executionTimer | .cooperativeStopTimer | .processExitTimer => true
  | _ => false

def isIdentityGate (kind : GateKind) : Bool := kind = .worker || kind.isTimer

end GateKind

structure GateIdentity where
  jobId : Bytes
  workerId : Bytes := []
  eventKind : Nat := 0
  timerPhase : Nat := 0
  eventSequence : UInt64 := 0
  timerGeneration : UInt64 := 0
deriving DecidableEq, Repr

structure Gate where
  registered : Bool := false
  pending : Bool := false
  retained : Bool := false
  ackAuthorized : Bool := false
  permit : Bool := false
  callbackLease : Bool := false
  ingressSequence : Nat := 0
  leaseSerial : Nat := 0
  queuedSequence : Nat := 0
  exportedLeaseSerial : Nat := 0
  retireRequested : Bool := false
deriving DecidableEq, Repr

/-- A lease on a gate of the pool; one that names no gate is refused wherever it is used. -/
structure SourceLease (c : Setup) where
  index : Slot c
  gate : GateKind
  serial : Nat
  borrowed : Bool
  acquiredPermit : Bool
deriving DecidableEq

/-! ## Inputs and their completions -/

structure GeneratedIdentityBundle where
  jobSession : Uuid
  worker : Uuid
  launchOperation : StableId
deriving DecidableEq, Repr

inductive Input where
  | candidate (event : RawCandidateEvent)
  | command (order : Command)
  | shutdown
deriving DecidableEq, Repr

namespace Input

/-- The Job an input is for; the marker has the default identity. -/
def jobId : Input → Uuid
  | .candidate event => event.jobId
  | .command order => order.jobId
  | .shutdown => ⟨[]⟩

def isCreation : Input → Bool
  | .candidate event => event.eventType = text "job_created"
  | _ => false

end Input

inductive CompletionCode where
  | success | reducerRejection | residentLimit | serviceFailed
deriving DecidableEq, Repr

structure Completion where
  code : CompletionCode := .serviceFailed
  rejection : Option Rejection := none
deriving DecidableEq, Repr

inductive IngressCode where
  | admitted | coalescedPending | alreadyPending | normalFull | residentLimit | admissionClosed | serviceFailed
deriving DecidableEq, Repr

structure IngressResult where
  code : IngressCode := .serviceFailed
  ingressSequence : Nat := 0
  completionCountBefore : Nat := 0
deriving DecidableEq, Repr

/-- A submission, and once it is admitted the places that are reserved for it; `none` is the index past every array. -/
structure Entry (c : Setup) where
  input : Input := .shutdown
  sequence : Nat := 0
  completionIndex : Option (Fin c.completionCapacity) := none
  completionGeneration : Nat := 0
  identity : Option GateIdentity := none
  critical : Bool := false
  gate : Option GateKind := none
  resident : Option (Slot c) := none
  victim : Option (Slot c) := none
  creationIdentities : Option GeneratedIdentityBundle := none
  authorized : Bool := false

instance (c : Setup) : Inhabited (Entry c) := ⟨{}⟩

structure CompletionSlot where
  reserved : Bool := false
  completed : Bool := false
  generation : Nat := 0
  sequence : Nat := 0
  value : Completion := {}
deriving DecidableEq, Repr

/-! ## Residents -/

instance phaseCount_neZero : NeZero (4 : Nat) := ⟨by decide⟩

def emptyBank : ApplyResult := ⟨{ jobId := ⟨[]⟩, sessionId := ⟨[]⟩ }, [], none⟩

structure Resident where
  id : Uuid := ⟨[]⟩
  banks : Bool → ApplyResult := fun _ => emptyBank
  active : Bool := false
  existing : Bool := false
  reserved : Bool := false
  ticket : Bool := false
  claimed : Bool := false
  createdSequence : UInt64 := 0
  claims : Nat := 0
  workerSequence : UInt64 := 0
  generatedIdentities : Option GeneratedIdentityBundle := none
  timerGeneration : Fin 4 → UInt64 := fun _ => 0
  identitySlots : GateKind → Option GateIdentity := fun _ => none
  gates : GateKind → Gate := fun _ => {}

def Resident.snapshot (r : Resident) : Snapshot := (r.banks r.active).snapshot

/-- Why the writer has failed: one constructor for each place of the source that latches a failure. -/
inductive Fault where
  | latched | thrown | reserveExhausted | leasesExhausted | ingressExhausted | destinationClosed | fifoFull | completionsFull
  | shutdownUnregistered | unknownSource | unregisteredSource | gateMismatch | completionMismatch | residualPermit
  | noVictim | cannotMaterialize | applyRejected | traceExhausted | traceOverrun | effectsRefused | sourcesRefused
  | commitFailed
deriving DecidableEq, Repr

/-! ## Trace records and prepared effects -/

inductive TraceKind where
  | journalAttempt | journalCommitted | snapshotActivated | effect | timerAction | capabilityHandoff | ackAuthorized
  | terminalPublished | safetyAction | sourceRegistered | responseReleased
deriving DecidableEq, Repr

structure TraceRecord where
  ordinal : Nat := 0
  kind : TraceKind := .journalAttempt
  journalSequence : UInt64 := 0
  eventType : EventType := .invalid
  effectId : EffectId := .invalid
  action : Bytes := []
deriving DecidableEq, Repr, Inhabited

inductive Handoff where
  | launch (jobId : Uuid) (intent : WorkerLaunchIntentPayload)
  | cooperativeStop (jobId : Uuid) (launchOperationId : StableId) (workerId : Uuid)
  | forcedStop (jobId : Uuid) (launchOperationId : StableId) (workerId : Uuid)
  | retainSession (jobId sessionId : Uuid)
deriving DecidableEq, Repr

structure PreparedEffect where
  id : EffectId
  mappedKind : TraceKind
  action : Bytes := []
  timerUpdate : Option (Fin 4 × UInt64) := none
  handoff : Option Handoff := none
deriving DecidableEq, Repr

end Sitometron.Core.Orchestrator
