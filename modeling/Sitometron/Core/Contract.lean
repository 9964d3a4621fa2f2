import Sitometron.Core.Reducer

/-!
# The normative contract matrix

`job-reducer-contract.json`: for every entity position and every command or event kind an ordered list
of guarded cases. The first case whose guard holds decides. Rows with the same cases are written once.
-/

namespace Sitometron.Core.Contract

/-! ## The language of the matrix -/

inductive Field where
  | schemaVersion | jobId | sessionId | entityExists | state | latchedReason | completionCandidate
  | completionMode | resourceStatus | allocationId | allocationDigest | workerLaunchStatus
  | launchOperationId | workerId | processPresence | processExitConfirmed | sessionRetentionStatus
  | finalizationStatus | cleanupStatus | pendingWorkerEventAck | pendingWorkerId
  | pendingWorkerEventSequence
deriving DecidableEq, Repr

inductive PayloadField where
  | sessionId | allocationId | allocationDigest | operationId | workerId | outcome | phase | eventSequence
  | completionMode | launchOperationId | status
deriving DecidableEq, Repr

inductive Value where
  | null
  | flag (value : Bool)
  | number (value : UInt64)
  | text (value : Bytes)
  | launched (started : Bool)
  | state (value : JobState)
  | outcome (value : TerminalOutcome)
  | mode (value : CompletionMode)
  | resource (value : ResourceStatus)
  | launch (value : LaunchStatus)
  | presence (value : ProcessPresence)
  | retention (value : RetentionStatus)
  | finalization (value : FinalizationStatus)
  | cleanup (value : CleanupStatus)
  | phase (value : TimeoutPhase)
deriving DecidableEq, Repr

inductive Operand where
  | snapshot (field : Field)
  | payload (field : PayloadField)
deriving DecidableEq, Repr

inductive Predicate where
  | eq (left : Operand) (value : Value)
  | notEq (left : Operand) (value : Value)
  | eqField (left right : Operand)
  | isIn (left : Operand) (values : List Value)
deriving DecidableEq, Repr

inductive Source where
  | literal (value : Value)
  | input
  | payload (field : PayloadField)
deriving DecidableEq, Repr

structure Acceptance where
  nextState : Option JobState := none
  journal : EventType
  normalize : Bool := false
  updates : List (Field × Source) := []
  effects : List EffectId := []
deriving DecidableEq, Repr

/-- `always` and `otherwise` are guards without predicates. -/
structure Case where
  guards : List Predicate := []
  result : Except RejectionReason Acceptance

inductive Position where
  | absent
  | present (state : JobState)
deriving DecidableEq, Repr

/-! ## Its meaning -/

def optional {α : Type} (wrap : α → Value) : Option α → Value
  | none => .null
  | some a => wrap a

abbrev View := Field → Value

def view (s : Snapshot) : View
  | .schemaVersion => .number s.schemaVersion.toUInt64
  | .jobId => .text s.jobId.value
  | .sessionId => .text s.sessionId.value
  | .entityExists => .flag s.entityExists
  | .state => .state s.state
  | .latchedReason => optional .outcome s.latchedReason
  | .completionCandidate => if s.completionCandidate then .outcome .succeeded else .null
  | .completionMode => if s.completionMode = .none then .null else .mode s.completionMode
  | .resourceStatus => .resource s.resourceStatus
  | .allocationId => optional (fun id => .text id.value) s.allocationId
  | .allocationDigest => optional (fun digest => .text digest.value) s.allocationDigest
  | .workerLaunchStatus => .launch s.workerLaunchStatus
  | .launchOperationId => optional (fun id => .text id.value) s.launchOperationId
  | .workerId => optional (fun id => .text id.value) s.workerId
  | .processPresence => .presence s.processPresence
  | .processExitConfirmed => .flag s.processExitConfirmed
  | .sessionRetentionStatus => .retention s.sessionRetentionStatus
  | .finalizationStatus => .finalization s.finalizationStatus
  | .cleanupStatus => .cleanup s.cleanupStatus
  | .pendingWorkerEventAck => .flag s.pendingWorkerEventAck
  | .pendingWorkerId => optional (fun id => .text id.value) s.pendingWorkerId
  | .pendingWorkerEventSequence => optional .number s.pendingWorkerEventSequence

def position (s : Snapshot) : Position := if s.entityExists then .present s.state else .absent

/-- A payload's field; `null` where the payload has none of that name. -/
def payloadView : EventPayload → PayloadField → Value
  | .jobCreated p, .sessionId => .text p.sessionId.value
  | .resourcesCommitted p, .allocationId => .text p.allocationId.value
  | .resourcesCommitted p, .allocationDigest => .text p.allocationDigest.value
  | .workerLaunchIntent p, .operationId => .text p.operationId.value
  | .workerLaunchIntent p, .allocationId => .text p.allocationId.value
  | .workerLaunchIntent p, .allocationDigest => .text p.allocationDigest.value
  | .workerLaunchIntent p, .workerId => .text p.workerId.value
  | .workerLaunchObserved p, .operationId => .text p.operationId.value
  | .workerLaunchObserved p, .outcome => .launched p.started
  | .workerRunning p, .workerId => .text p.workerId.value
  | .timeoutExpired p, .phase => .phase p.phase
  | .workerEvent p, .workerId => .text p.workerId.value
  | .workerEvent p, .eventSequence => .number p.eventSequence
  | .processExitConfirmed p, .completionMode => .mode p.completionMode
  | .processExitConfirmed p, .launchOperationId => .text p.launchOperationId.value
  | .session p, .sessionId => .text p.sessionId.value
  | .terminalOutcome p, .outcome => .outcome p.outcome
  | .resourcesReleased p, .allocationId => .text p.allocationId.value
  | .resourcesReleased p, .allocationDigest => .text p.allocationDigest.value
  | .cleanupStatus p, .status => .cleanup p.status
  | _, _ => .null

def Operand.value (v : View) (payload : EventPayload) : Operand → Value
  | .snapshot field => v field
  | .payload field => payloadView payload field

def Predicate.holds (v : View) (payload : EventPayload) : Predicate → Bool
  | .eq left value => left.value v payload = value
  | .notEq left value => left.value v payload ≠ value
  | .eqField left right => left.value v payload = right.value v payload
  | .isIn left values => values.contains (left.value v payload)

def Source.value (job : Uuid) (payload : EventPayload) : Source → Value
  | .literal value => value
  | .input => .text job.value
  | .payload field => payloadView payload field

/-- The listed updates and the next state; every other field is kept. -/
def Acceptance.next (a : Acceptance) (v : View) (job : Uuid) (payload : EventPayload) : View := fun field =>
  match a.updates.lookup field with
  | some source => source.value job payload
  | none =>
      match field, a.nextState with
      | .state, some state => .state state
      | .entityExists, some _ => .flag true
      | _, _ => v field

/-- The payload of the normalized event copies the original kind and the worker event's identity. -/
def normalizedPayload (kind : EventType) : EventPayload → EventPayload
  | .workerEvent p => .lateWorkerEvent ⟨kind, p.workerId, p.eventSequence⟩
  | payload => payload

inductive Verdict where
  | reject (reason : RejectionReason)
  | accept (journal : EventType) (payload : EventPayload) (next : View) (effects : List EffectId)

def Case.verdict (v : View) (event : InternalEvent) (c : Case) : Verdict :=
  match c.result with
  | .error reason => .reject reason
  | .ok a =>
      .accept a.journal (if a.normalize then normalizedPayload event.eventType event.payload else event.payload)
        (a.next v event.jobId event.payload) a.effects

def evaluate (cases : List Case) (v : View) (event : InternalEvent) : Option Verdict :=
  (cases.find? fun c => c.guards.all (Predicate.holds v event.payload)).map (Case.verdict v event)

/-! ## Command rows -/

def refuse (reason : RejectionReason) : Case := { result := .error reason }

def commandMatrix : CommandType → Position → List Case
  | .invalid, _ => []
  | _, .absent => [refuse .jobNotFound]
  | .cancel, .present .admitted | .cancel, .present .preparing | .cancel, .present .running =>
      [{ result := .ok { journal := .cancelAccepted } }]
  | .cancel, .present .stopping => [refuse .stopCauseAlreadyLatched]
  | .cancel, .present _ => [refuse .commandNotAllowedInState]
  | .terminate, .present .admitted | .terminate, .present .preparing | .terminate, .present .running =>
      [{ result := .ok { journal := .terminateAccepted } }]
  | .terminate, .present .stopping | .terminate, .present .finalizing =>
      [{ guards := [.eq (.snapshot .processExitConfirmed) (.flag false)]
         result := .ok { journal := .terminateAccepted } },
       refuse .commandNotAllowedInState]
  | .terminate, .present _ => [refuse .commandNotAllowedInState]

/-! ## Event rows -/

def bound (payload : PayloadField) (field : Field) : Predicate :=
  .eqField (.payload payload) (.snapshot field)

def exitIs (confirmed : Bool) : Predicate := .eq (.snapshot .processExitConfirmed) (.flag confirmed)

def phaseIs (phase : TimeoutPhase) : Predicate := .eq (.payload .phase) (.phase phase)

def latchedFailure : Predicate :=
  .isIn (.snapshot .latchedReason)
    [.outcome .failed, .outcome .cancelled, .outcome .terminated, .outcome .timedOut]

def successCandidate : List Predicate :=
  [.eq (.snapshot .latchedReason) .null, .eq (.snapshot .completionCandidate) (.outcome .succeeded)]

def latch (reason : TerminalOutcome) : Field × Source := (.latchedReason, .literal (.outcome reason))

def setMode (mode : CompletionMode) : Field × Source := (.completionMode, .literal (.mode mode))

def finalizationPending : Field × Source := (.finalizationStatus, .literal (.finalization .pending))

def exitedEarly (reason : TerminalOutcome) : List (Field × Source) :=
  [latch reason, setMode .processAlreadyExited, (.processExitConfirmed, .literal (.flag true)),
    finalizationPending]

def bindAck : List (Field × Source) :=
  [(.pendingWorkerEventAck, .literal (.flag true)), (.pendingWorkerId, .payload .workerId),
    (.pendingWorkerEventSequence, .payload .eventSequence)]

def clearAck : List (Field × Source) :=
  [(.pendingWorkerEventAck, .literal (.flag false)), (.pendingWorkerId, .literal .null),
    (.pendingWorkerEventSequence, .literal .null)]

def exitObserved : List (Field × Source) :=
  [(.processPresence, .literal (.presence .absent)), (.processExitConfirmed, .literal (.flag true))]

def created : Case :=
  { result := .ok
      { nextState := some .admitted
        journal := .jobCreated
        updates :=
          [(.latchedReason, .literal .null), (.completionCandidate, .literal .null),
            (.completionMode, .literal .null), (.resourceStatus, .literal (.resource .none)),
            (.workerLaunchStatus, .literal (.launch .notStarted)),
            (.processPresence, .literal (.presence .absent)), (.processExitConfirmed, .literal (.flag false)),
            (.sessionRetentionStatus, .literal (.retention .notStarted)),
            (.finalizationStatus, .literal (.finalization .notStarted)),
            (.cleanupStatus, .literal (.cleanup .pending)), (.pendingWorkerEventAck, .literal (.flag false)),
            (.jobId, .input), (.sessionId, .payload .sessionId), (.allocationId, .literal .null),
            (.allocationDigest, .literal .null), (.launchOperationId, .literal .null),
            (.workerId, .literal .null), (.pendingWorkerId, .literal .null),
            (.pendingWorkerEventSequence, .literal .null)] } }

def notAllowed : List Case := [refuse .eventNotAllowedInState]

def resourcesCommittedRow : JobState → List Case
  | .admitted =>
      [{ result := .ok
          { nextState := some .preparing
            journal := .resourcesCommitted
            updates := [(.resourceStatus, .literal (.resource .committed)),
              (.allocationId, .payload .allocationId), (.allocationDigest, .payload .allocationDigest)]
            effects := [.armPreparationTimeout] } }]
  | _ => notAllowed

def workerLaunchIntentRow : JobState → List Case
  | .preparing =>
      [{ guards := [.eq (.snapshot .workerLaunchStatus) (.launch .notStarted),
          bound .allocationId .allocationId, bound .allocationDigest .allocationDigest]
         result := .ok
          { journal := .workerLaunchIntent
            updates := [(.workerLaunchStatus, .literal (.launch .intentRecorded)),
              (.processPresence, .literal (.presence .unknown)),
              (.launchOperationId, .payload .operationId), (.workerId, .payload .workerId)]
            effects := [.launchWorkerOnce] } },
       refuse .invariantViolation]
  | _ => notAllowed

def workerLaunchObservedRow : JobState → List Case
  | .preparing =>
      [{ guards := [.eq (.snapshot .workerLaunchStatus) (.launch .intentRecorded),
          .eq (.payload .outcome) (.launched true), bound .operationId .launchOperationId]
         result := .ok
          { journal := .workerLaunchObserved
            updates := [(.workerLaunchStatus, .literal (.launch .observed)),
              (.processPresence, .literal (.presence .present))] } },
       { guards := [.eq (.snapshot .workerLaunchStatus) (.launch .intentRecorded),
          .eq (.payload .outcome) (.launched false), bound .operationId .launchOperationId]
         result := .ok
          { nextState := some .finalizing
            journal := .workerLaunchObserved
            updates := (.workerLaunchStatus, .literal (.launch .failed)) ::
              (.processPresence, .literal (.presence .absent)) :: exitedEarly .failed
            effects := [.disarmPreparationTimeout] } },
       refuse .invariantViolation]
  | _ => notAllowed

def workerRunningRow : JobState → List Case
  | .preparing =>
      [{ guards := [.eq (.snapshot .workerLaunchStatus) (.launch .observed), bound .workerId .workerId]
         result := .ok
          { nextState := some .running
            journal := .workerRunning
            updates := [(.workerId, .payload .workerId), (.processPresence, .literal (.presence .present))]
            effects := [.disarmPreparationTimeout, .armExecutionTimeout] } },
       refuse .invariantViolation]
  | _ => notAllowed

def cancelAcceptedRow : JobState → List Case
  | .admitted =>
      [{ result := .ok
          { nextState := some .finalizing, journal := .cancelAccepted, updates := exitedEarly .cancelled } }]
  | .preparing =>
      [{ guards := [.eq (.snapshot .processPresence) (.presence .absent)]
         result := .ok
          { nextState := some .finalizing
            journal := .cancelAccepted
            updates := exitedEarly .cancelled
            effects := [.disarmPreparationTimeout] } },
       { result := .ok
          { nextState := some .stopping
            journal := .cancelAccepted
            updates := [latch .cancelled, setMode .cooperative]
            effects := [.disarmPreparationTimeout, .requestCooperativeStop, .armCooperativeStopTimeout] } }]
  | .running =>
      [{ result := .ok
          { nextState := some .stopping
            journal := .cancelAccepted
            updates := [latch .cancelled, setMode .cooperative]
            effects := [.requestCooperativeStop, .armCooperativeStopTimeout] } }]
  | .stopping => [refuse .stopCauseAlreadyLatched]
  | _ => [refuse .commandNotAllowedInState]

def terminateAcceptedRow : JobState → List Case
  | .admitted =>
      [{ result := .ok
          { nextState := some .finalizing, journal := .terminateAccepted, updates := exitedEarly .terminated } }]
  | .preparing =>
      [{ guards := [.eq (.snapshot .processPresence) (.presence .absent)]
         result := .ok
          { nextState := some .finalizing
            journal := .terminateAccepted
            updates := exitedEarly .terminated
            effects := [.disarmPreparationTimeout] } },
       { result := .ok
          { nextState := some .stopping
            journal := .terminateAccepted
            updates := [latch .terminated, setMode .forced]
            effects := [.disarmPreparationTimeout, .requestForcedStop, .disarmCooperativeStopTimeout,
              .armProcessExitConfirmationTimeoutIfNeeded] } }]
  | .running =>
      [{ result := .ok
          { nextState := some .stopping
            journal := .terminateAccepted
            updates := [latch .terminated, setMode .forced]
            effects := [.requestForcedStop, .disarmCooperativeStopTimeout,
              .armProcessExitConfirmationTimeoutIfNeeded] } }]
  | .stopping | .finalizing =>
      [{ guards := [exitIs false]
         result := .ok
          { journal := .terminateAccepted
            updates := [setMode .forced]
            effects := [.requestForcedStop, .disarmCooperativeStopTimeout,
              .armProcessExitConfirmationTimeoutIfNeeded] } },
       refuse .commandNotAllowedInState]
  | _ => [refuse .commandNotAllowedInState]

def timeoutExpiredRow : JobState → List Case
  | .admitted => notAllowed
  | .preparing =>
      [{ guards := [phaseIs .preparation, .eq (.snapshot .processPresence) (.presence .absent)]
         result := .ok
          { nextState := some .finalizing
            journal := .timeoutExpired
            updates := exitedEarly .timedOut
            effects := [.disarmPreparationTimeout] } },
       { guards := [phaseIs .preparation]
         result := .ok
          { nextState := some .stopping
            journal := .timeoutExpired
            updates := [latch .timedOut, setMode .cooperative]
            effects := [.disarmPreparationTimeout, .requestCooperativeStop, .armCooperativeStopTimeout] } },
       refuse .timeoutPhaseMismatch]
  | .running =>
      [{ guards := [phaseIs .execution]
         result := .ok
          { nextState := some .stopping
            journal := .timeoutExpired
            updates := [latch .timedOut, setMode .cooperative]
            effects := [.requestCooperativeStop, .armCooperativeStopTimeout] } },
       refuse .timeoutPhaseMismatch]
  | .stopping =>
      [{ guards := [phaseIs .cooperativeStop]
         result := .ok
          { journal := .timeoutExpired
            updates := [setMode .forced]
            effects := [.disarmCooperativeStopTimeout, .requestForcedStop,
              .armProcessExitConfirmationTimeoutIfNeeded] } },
       { guards := [phaseIs .execution]
         result := .ok
          { journal := .timeoutExpired
            updates := [setMode .forced]
            effects := [.disarmExecutionTimeout, .disarmCooperativeStopTimeout, .requestForcedStop,
              .armProcessExitConfirmationTimeoutIfNeeded] } },
       refuse .timeoutPhaseMismatch]
  | .finalizing =>
      [{ guards := phaseIs .execution :: successCandidate ++ [exitIs false]
         result := .ok
          { journal := .timeoutExpired
            updates := [latch .timedOut, (.completionCandidate, .literal .null), setMode .forced]
            effects := [.requestForcedStop, .disarmCooperativeStopTimeout,
              .armProcessExitConfirmationTimeoutIfNeeded] } },
       { guards := phaseIs .execution :: successCandidate ++ [exitIs true]
         result := .ok
          { journal := .timeoutExpired
            updates := [latch .timedOut, (.completionCandidate, .literal .null),
              setMode .processAlreadyExited] } },
       { guards := [phaseIs .execution, latchedFailure, exitIs false]
         result := .ok
          { journal := .timeoutExpired
            updates := [setMode .forced]
            effects := [.requestForcedStop, .disarmCooperativeStopTimeout,
              .armProcessExitConfirmationTimeoutIfNeeded] } },
       { guards := [phaseIs .execution, latchedFailure, exitIs true]
         result := .ok { journal := .timeoutExpired } },
       refuse .timeoutPhaseMismatch]
  | _ =>
      [{ guards := [phaseIs .processExitConfirmation, exitIs false]
         result := .ok
          { journal := .timeoutExpired
            updates := [(.cleanupStatus, .literal (.cleanup .incomplete))]
            effects := [.requestForcedStop, .quarantineResources, .setReadinessFalse] } },
       { guards := [phaseIs .processExitConfirmation, exitIs true]
         result := .error .invariantViolation },
       refuse .timeoutPhaseMismatch]

/-- A worker outcome once the Job is finalizing or terminal. -/
def lateRow : List Case :=
  [{ guards := [bound .workerId .workerId]
     result := .ok
      { journal := .lateWorkerEvent, normalize := true, effects := [.ackLateWorkerEvent] } },
   refuse .invariantViolation]

def workerCompletedRow : JobState → List Case
  | .admitted | .preparing => notAllowed
  | .running =>
      [{ guards := [bound .workerId .workerId]
         result := .ok
          { nextState := some .finalizing
            journal := .workerCompleted
            updates := (.completionCandidate, .literal (.outcome .succeeded)) :: finalizationPending ::
              bindAck } },
       refuse .invariantViolation]
  | .stopping =>
      [{ guards := [bound .workerId .workerId]
         result := .ok
          { nextState := some .finalizing
            journal := .workerCompleted
            updates := finalizationPending :: bindAck
            effects := [.disarmCooperativeStopTimeout] } },
       refuse .invariantViolation]
  | _ => lateRow

def workerFailedRow : JobState → List Case
  | .admitted => notAllowed
  | .preparing =>
      [{ guards := [.eqField (.snapshot .workerId) (.payload .workerId)]
         result := .ok
          { nextState := some .finalizing
            journal := .workerFailed
            updates := latch .failed :: finalizationPending :: bindAck
            effects := [.disarmPreparationTimeout] } },
       refuse .invariantViolation]
  | .running =>
      [{ guards := [bound .workerId .workerId]
         result := .ok
          { nextState := some .finalizing
            journal := .workerFailed
            updates := latch .failed :: finalizationPending :: bindAck } },
       refuse .invariantViolation]
  | .stopping =>
      [{ guards := [bound .workerId .workerId]
         result := .ok
          { nextState := some .finalizing
            journal := .workerFailed
            updates := finalizationPending :: bindAck
            effects := [.disarmCooperativeStopTimeout] } },
       refuse .invariantViolation]
  | _ => lateRow

def processExitConfirmedRow : JobState → List Case
  | .admitted => notAllowed
  | .preparing =>
      [{ guards := [bound .launchOperationId .launchOperationId]
         result := .ok
          { nextState := some .finalizing
            journal := .processExitConfirmed
            updates := latch .failed :: setMode .processAlreadyExited :: exitObserved ++
              finalizationPending :: clearAck
            effects := [.disarmPreparationTimeout] } },
       refuse .invariantViolation]
  | .running =>
      [{ guards := [bound .launchOperationId .launchOperationId]
         result := .ok
          { nextState := some .finalizing
            journal := .processExitConfirmed
            updates := latch .failed :: setMode .processAlreadyExited :: exitObserved ++
              finalizationPending :: clearAck } },
       refuse .invariantViolation]
  | .stopping =>
      [{ guards := [bound .launchOperationId .launchOperationId]
         result := .ok
          { nextState := some .finalizing
            journal := .processExitConfirmed
            updates := exitObserved ++ finalizationPending :: clearAck
            effects := [.disarmCooperativeStopTimeout, .disarmProcessExitConfirmationTimeout] } },
       refuse .invariantViolation]
  | _ =>
      [{ guards := [exitIs false, bound .launchOperationId .launchOperationId]
         result := .ok
          { journal := .processExitConfirmed
            updates := exitObserved ++ (.completionMode, .payload .completionMode) :: clearAck
            effects := [.disarmCooperativeStopTimeout, .disarmProcessExitConfirmationTimeout] } },
       { guards := [exitIs true, bound .completionMode .completionMode,
          bound .launchOperationId .launchOperationId]
         result := .ok { journal := .processExitConfirmed } },
       refuse .invariantViolation]

/-- The two retention events differ in the status they expect, the one they record and the effect. -/
def sessionRow (event : EventType) (expected recorded : RetentionStatus) (effects : List EffectId) :
    JobState → List Case
  | .finalizing =>
      [{ guards := [.eq (.snapshot .sessionRetentionStatus) (.retention expected), bound .sessionId .sessionId]
         result := .ok
          { journal := event
            updates := [(.sessionRetentionStatus, .literal (.retention recorded))]
            effects } },
       refuse .invariantViolation]
  | _ => notAllowed

def finalizationCompletedRow : JobState → List Case
  | .finalizing =>
      [{ guards := [.eq (.snapshot .sessionRetentionStatus) (.retention .retained),
          .eq (.snapshot .finalizationStatus) (.finalization .pending)]
         result := .ok
          { journal := .finalizationCompleted
            updates := [(.finalizationStatus, .literal (.finalization .completed))] } },
       { guards := [.notEq (.snapshot .sessionRetentionStatus) (.retention .retained)]
         result := .error .requiredFinalizationFactMissing },
       refuse .invariantViolation]
  | _ => notAllowed

def finalizationFailedRow : JobState → List Case
  | .finalizing =>
      [{ guards := .eq (.snapshot .finalizationStatus) (.finalization .pending) :: successCandidate
         result := .ok
          { journal := .finalizationFailed
            updates := [latch .failed, (.completionCandidate, .literal .null),
              (.finalizationStatus, .literal (.finalization .failed)),
              (.cleanupStatus, .literal (.cleanup .incomplete))] } },
       { guards := [.eq (.snapshot .finalizationStatus) (.finalization .pending), latchedFailure]
         result := .ok
          { journal := .finalizationFailed
            updates := [(.finalizationStatus, .literal (.finalization .failed)),
              (.cleanupStatus, .literal (.cleanup .incomplete))] } },
       refuse .invariantViolation]
  | _ => notAllowed

def outcomeCase (outcome : TerminalOutcome) (state : JobState) (guards : List Predicate) : Case :=
  { guards := .isIn (.snapshot .finalizationStatus) [.finalization .completed, .finalization .failed] ::
      .eq (.payload .outcome) (.outcome outcome) :: guards
    result := .ok
      { nextState := some state
        journal := .terminalOutcomeCommitted
        effects := [.disarmExecutionTimeout, .ackTerminalWorkerEventIfPending, .publishTerminalResult,
          .armProcessExitConfirmationTimeoutIfNeeded] } }

def latchedOutcomeCase (outcome : TerminalOutcome) (state : JobState) : Case :=
  outcomeCase outcome state [.eq (.snapshot .latchedReason) (.outcome outcome)]

def terminalOutcomeCommittedRow : JobState → List Case
  | .finalizing =>
      [{ guards := [.eq (.snapshot .finalizationStatus) (.finalization .pending)]
         result := .error .requiredFinalizationFactMissing },
       outcomeCase .succeeded .succeeded
        (successCandidate ++ [.eq (.snapshot .finalizationStatus) (.finalization .completed)]),
       latchedOutcomeCase .failed .failed, latchedOutcomeCase .cancelled .cancelled,
       latchedOutcomeCase .terminated .terminated, latchedOutcomeCase .timedOut .timedOut,
       refuse .terminalOutcomeMismatch]
  | _ => notAllowed

def resourcesReleasedRow (state : JobState) : List Case :=
  if state.isTerminal then
    [{ guards := [.eq (.snapshot .resourceStatus) (.resource .committed), exitIs true,
        bound .allocationId .allocationId, bound .allocationDigest .allocationDigest]
       result := .ok
        { journal := .resourcesReleased
          updates := [(.resourceStatus, .literal (.resource .released))] } },
     { guards := [.eq (.snapshot .resourceStatus) (.resource .released),
        bound .allocationId .allocationId, bound .allocationDigest .allocationDigest]
       result := .ok { journal := .resourcesReleased } },
     refuse .invariantViolation]
  else notAllowed

def cleanupStatusRecordedRow (state : JobState) : List Case :=
  if state.isTerminal then
    [{ guards := [.eq (.snapshot .cleanupStatus) (.cleanup .pending)]
       result := .ok
        { journal := .cleanupStatusRecorded, updates := [(.cleanupStatus, .payload .status)] } },
     { guards := [bound .status .cleanupStatus], result := .ok { journal := .cleanupStatusRecorded } },
     refuse .invariantViolation]
  else notAllowed

def lateWorkerEventRow : JobState → List Case
  | .admitted | .preparing | .running | .stopping => notAllowed
  | _ => [{ result := .ok { journal := .lateWorkerEvent, effects := [.ackLateWorkerEvent] } }]

def eventMatrix : EventType → Position → List Case
  | .invalid, _ => []
  | .jobCreated, .absent => [created]
  | _, .absent => [refuse .jobNotFound]
  | .jobCreated, .present _ => [refuse .jobAlreadyExists]
  | .resourcesCommitted, .present state => resourcesCommittedRow state
  | .workerLaunchIntent, .present state => workerLaunchIntentRow state
  | .workerLaunchObserved, .present state => workerLaunchObservedRow state
  | .workerRunning, .present state => workerRunningRow state
  | .cancelAccepted, .present state => cancelAcceptedRow state
  | .terminateAccepted, .present state => terminateAcceptedRow state
  | .timeoutExpired, .present state => timeoutExpiredRow state
  | .workerCompleted, .present state => workerCompletedRow state
  | .workerFailed, .present state => workerFailedRow state
  | .processExitConfirmed, .present state => processExitConfirmedRow state
  | .sessionRetainRequested, .present state =>
      sessionRow .sessionRetainRequested .notStarted .requested [.retainSessionSameIdentity] state
  | .sessionRetained, .present state => sessionRow .sessionRetained .requested .retained [] state
  | .finalizationCompleted, .present state => finalizationCompletedRow state
  | .finalizationFailed, .present state => finalizationFailedRow state
  | .terminalOutcomeCommitted, .present state => terminalOutcomeCommittedRow state
  | .resourcesReleased, .present state => resourcesReleasedRow state
  | .cleanupStatusRecorded, .present state => cleanupStatusRecordedRow state
  | .lateWorkerEvent, .present state => lateWorkerEventRow state

end Sitometron.Core.Contract
