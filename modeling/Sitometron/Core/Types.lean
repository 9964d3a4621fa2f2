import Sitometron.Lib.Json

/-!
# The vocabulary of the Job reducer

The enumerations, payloads, snapshot and messages of `job_reducer.hpp`. An enumeration's `invalid`
stands for every value outside its closed range.
-/

namespace Sitometron.Core

@[ext] structure Uuid where
  value : Bytes := []
deriving DecidableEq, Repr

@[ext] structure StableId where
  value : Bytes := []
deriving DecidableEq, Repr

@[ext] structure Digest where
  value : Bytes := []
deriving DecidableEq, Repr

inductive JobState where
  | admitted | preparing | running | stopping | finalizing
  | succeeded | failed | cancelled | terminated | timedOut | invalid
deriving DecidableEq, Repr

inductive CommandType where
  | cancel | terminate | invalid
deriving DecidableEq, Repr

inductive TimeoutPhase where
  | preparation | execution | cooperativeStop | processExitConfirmation | invalid
deriving DecidableEq, Repr

inductive TerminalOutcome where
  | succeeded | failed | cancelled | terminated | timedOut | invalid
deriving DecidableEq, Repr

inductive RejectionReason where
  | jobNotFound | jobAlreadyExists | commandNotAllowedInState | eventNotAllowedInState
  | stopCauseAlreadyLatched | timeoutPhaseMismatch | terminalOutcomeMismatch
  | requiredFinalizationFactMissing | invalidEventPayload | invariantViolation | invalid
deriving DecidableEq, Repr

inductive EffectId where
  | armPreparationTimeout | disarmPreparationTimeout | launchWorkerOnce | armExecutionTimeout
  | disarmExecutionTimeout | requestCooperativeStop | requestForcedStop | retainSessionSameIdentity
  | ackTerminalWorkerEventIfPending | ackLateWorkerEvent | publishTerminalResult
  | armProcessExitConfirmationTimeoutIfNeeded | quarantineResources | setReadinessFalse
  | armCooperativeStopTimeout | disarmCooperativeStopTimeout
  | disarmProcessExitConfirmationTimeout | invalid
deriving DecidableEq, Repr

inductive ResourceStatus where
  | none | committed | released | invalid
deriving DecidableEq, Repr

inductive LaunchStatus where
  | notStarted | intentRecorded | observed | failed | invalid
deriving DecidableEq, Repr

inductive ProcessPresence where
  | absent | unknown | present | invalid
deriving DecidableEq, Repr

inductive RetentionStatus where
  | notStarted | requested | retained | invalid
deriving DecidableEq, Repr

inductive FinalizationStatus where
  | notStarted | pending | completed | failed | invalid
deriving DecidableEq, Repr

inductive CleanupStatus where
  | pending | completed | incomplete | invalid
deriving DecidableEq, Repr

inductive CompletionMode where
  | none | cooperative | forced | processAlreadyExited | invalid
deriving DecidableEq, Repr

inductive EventType where
  | jobCreated | resourcesCommitted | workerLaunchIntent | workerLaunchObserved | workerRunning
  | cancelAccepted | terminateAccepted | timeoutExpired | workerCompleted | workerFailed
  | processExitConfirmed | sessionRetainRequested | sessionRetained | finalizationCompleted
  | finalizationFailed | terminalOutcomeCommitted | resourcesReleased | cleanupStatusRecorded
  | lateWorkerEvent | invalid
deriving DecidableEq, Repr

/-! ## Payloads -/

structure JobCreatedPayload where
  sessionId : Uuid
deriving DecidableEq, Repr

structure ResourcesCommittedPayload where
  allocationId : StableId
  allocationDigest : Digest
  schemaId : StableId
  schemaVersion : UInt32
  payloadUtf8 : Bytes
deriving DecidableEq, Repr

structure WorkerLaunchIntentPayload where
  operationId : StableId
  applicationId : StableId
  applicationVersion : Bytes
  bundleSha256 : Digest
  allocationId : StableId
  allocationDigest : Digest
  workerId : Uuid
deriving DecidableEq, Repr

structure WorkerLaunchObservedPayload where
  operationId : StableId
  started : Bool
deriving DecidableEq, Repr

structure WorkerRunningPayload where
  workerId : Uuid
deriving DecidableEq, Repr

structure PrincipalPayload where
  principalSubject : Bytes
deriving DecidableEq, Repr

structure TimeoutExpiredPayload where
  phase : TimeoutPhase
  timerGeneration : UInt64
deriving DecidableEq, Repr

structure WorkerEventPayload where
  workerId : Uuid
  eventSequence : UInt64
deriving DecidableEq, Repr

structure ProcessExitConfirmedPayload where
  completionMode : CompletionMode
  launchOperationId : StableId
deriving DecidableEq, Repr

structure SessionPayload where
  sessionId : Uuid
deriving DecidableEq, Repr

structure TerminalOutcomePayload where
  outcome : TerminalOutcome
deriving DecidableEq, Repr

structure ResourcesReleasedPayload where
  allocationId : StableId
  allocationDigest : Digest
deriving DecidableEq, Repr

structure CleanupStatusPayload where
  status : CleanupStatus
deriving DecidableEq, Repr

structure LateWorkerEventPayload where
  originalEventType : EventType
  workerId : Uuid
  eventSequence : UInt64
deriving DecidableEq, Repr

inductive EventPayload where
  | empty
  | jobCreated (p : JobCreatedPayload)
  | resourcesCommitted (p : ResourcesCommittedPayload)
  | workerLaunchIntent (p : WorkerLaunchIntentPayload)
  | workerLaunchObserved (p : WorkerLaunchObservedPayload)
  | workerRunning (p : WorkerRunningPayload)
  | principal (p : PrincipalPayload)
  | timeoutExpired (p : TimeoutExpiredPayload)
  | workerEvent (p : WorkerEventPayload)
  | processExitConfirmed (p : ProcessExitConfirmedPayload)
  | session (p : SessionPayload)
  | terminalOutcome (p : TerminalOutcomePayload)
  | resourcesReleased (p : ResourcesReleasedPayload)
  | cleanupStatus (p : CleanupStatusPayload)
  | lateWorkerEvent (p : LateWorkerEventPayload)
deriving DecidableEq, Repr

/-! ## The snapshot and the reducer's messages -/

@[ext] structure Snapshot where
  schemaVersion : UInt32 := 1
  jobId : Uuid
  sessionId : Uuid
  entityExists : Bool := false
  state : JobState := .invalid
  latchedReason : Option TerminalOutcome := none
  completionCandidate : Bool := false
  completionMode : CompletionMode := .invalid
  resourceStatus : ResourceStatus := .invalid
  allocationId : Option StableId := none
  allocationDigest : Option Digest := none
  workerLaunchStatus : LaunchStatus := .invalid
  launchOperationId : Option StableId := none
  workerId : Option Uuid := none
  processPresence : ProcessPresence := .invalid
  processExitConfirmed : Bool := false
  sessionRetentionStatus : RetentionStatus := .invalid
  finalizationStatus : FinalizationStatus := .invalid
  cleanupStatus : CleanupStatus := .invalid
  pendingWorkerEventAck : Bool := false
  pendingWorkerId : Option Uuid := none
  pendingWorkerEventSequence : Option UInt64 := none
deriving DecidableEq, Repr

structure Command where
  schemaVersion : UInt32 := 1
  commandType : CommandType
  jobId : Uuid
  principalSubject : Bytes
deriving DecidableEq, Repr

structure RawCandidateEvent where
  schemaVersion : UInt32 := 1
  jobId : Uuid
  eventType : Bytes
  payloadJson : Bytes
deriving DecidableEq, Repr

structure InternalEvent where
  schemaVersion : UInt32 := 1
  jobId : Uuid
  eventType : EventType
  payload : EventPayload
deriving DecidableEq, Repr

structure PreEnvelopeProposal where
  schemaVersion : UInt32 := 1
  jobId : Uuid
  eventType : EventType
  payload : EventPayload
deriving DecidableEq, Repr

structure Rejection where
  schemaVersion : UInt32 := 1
  reason : RejectionReason
deriving DecidableEq, Repr

abbrev Decision := Except Rejection PreEnvelopeProposal

abbrev NormalizedCandidate := Except Rejection InternalEvent

structure ApplyResult where
  snapshot : Snapshot
  effects : List EffectId
  rejection : Option Rejection
deriving DecidableEq, Repr

structure LogicalJobEvent where
  schemaVersion : UInt32
  sequence : UInt64
  eventType : EventType
  recordedAt : Bytes
  jobId : Uuid
  payload : EventPayload
deriving DecidableEq, Repr

/-! ## Names -/

def EventType.toText : EventType → Bytes
  | .jobCreated => text "job_created"
  | .resourcesCommitted => text "resources_committed"
  | .workerLaunchIntent => text "worker_launch_intent"
  | .workerLaunchObserved => text "worker_launch_observed"
  | .workerRunning => text "worker_running"
  | .cancelAccepted => text "cancel_accepted"
  | .terminateAccepted => text "terminate_accepted"
  | .timeoutExpired => text "timeout_expired"
  | .workerCompleted => text "worker_completed"
  | .workerFailed => text "worker_failed"
  | .processExitConfirmed => text "process_exit_confirmed"
  | .sessionRetainRequested => text "session_retain_requested"
  | .sessionRetained => text "session_retained"
  | .finalizationCompleted => text "finalization_completed"
  | .finalizationFailed => text "finalization_failed"
  | .terminalOutcomeCommitted => text "terminal_outcome_committed"
  | .resourcesReleased => text "resources_released"
  | .cleanupStatusRecorded => text "cleanup_status_recorded"
  | .lateWorkerEvent => text "late_worker_event"
  | .invalid => text "invalid"

/-- The closed event types, in the order of the enumeration. -/
def EventType.closed : List EventType :=
  [.jobCreated, .resourcesCommitted, .workerLaunchIntent, .workerLaunchObserved, .workerRunning,
    .cancelAccepted, .terminateAccepted, .timeoutExpired, .workerCompleted, .workerFailed,
    .processExitConfirmed, .sessionRetainRequested, .sessionRetained, .finalizationCompleted,
    .finalizationFailed, .terminalOutcomeCommitted, .resourcesReleased, .cleanupStatusRecorded,
    .lateWorkerEvent]

inductive LogicalCommitResult where
  | committed | definiteFailure | outcomeUnknown
deriving DecidableEq, Repr

end Sitometron.Core
