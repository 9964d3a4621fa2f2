import Sitometron.Core.Candidate
import Sitometron.Lib.Trace

/-!
# The Job reducer

`DecideCommand`, `DecideEvent` and `Apply` of `job_reducer.cpp`.
-/

namespace Sitometron.Core

def reject (reason : RejectionReason) : Decision := .error { schemaVersion := 1, reason }

def accept (s : Snapshot) (type : EventType) (payload : EventPayload) : Decision :=
  .ok { schemaVersion := 1, jobId := s.jobId, eventType := type, payload }

def rejectState : Decision := reject .eventNotAllowedInState

def acceptEvent (s : Snapshot) (event : InternalEvent) : Decision :=
  accept s event.eventType event.payload

/-! ## Decisions -/

def decideResourcesCommitted (s : Snapshot) (event : InternalEvent) : Decision :=
  if s.state = .admitted then acceptEvent s event else rejectState

def decideWorkerLaunchIntent (s : Snapshot) (event : InternalEvent) : Decision :=
  if s.state ≠ .preparing then rejectState
  else match event.payload with
    | .workerLaunchIntent p =>
        if s.workerLaunchStatus = .notStarted && s.allocationId = some p.allocationId &&
            s.allocationDigest = some p.allocationDigest then acceptEvent s event
        else reject .invariantViolation
    | _ => reject .invalidEventPayload

def decideWorkerLaunchObserved (s : Snapshot) (event : InternalEvent) : Decision :=
  if s.state ≠ .preparing then rejectState
  else match event.payload with
    | .workerLaunchObserved p =>
        if s.launchOperationId ≠ some p.operationId || s.workerLaunchStatus ≠ .intentRecorded then
          reject .invariantViolation
        else acceptEvent s event
    | _ => reject .invariantViolation

def decideWorkerRunning (s : Snapshot) (event : InternalEvent) : Decision :=
  if s.state ≠ .preparing then rejectState
  else match event.payload with
    | .workerRunning p =>
        if s.workerLaunchStatus = .observed && s.workerId = some p.workerId then acceptEvent s event
        else reject .invariantViolation
    | _ => reject .invariantViolation

def decideCancelAccepted (s : Snapshot) (event : InternalEvent) : Decision :=
  if s.state = .stopping then reject .stopCauseAlreadyLatched
  else if s.state = .finalizing || s.state.isTerminal then reject .commandNotAllowedInState
  else if s.state = .admitted || s.state = .preparing || s.state = .running then acceptEvent s event
  else rejectState

def decideTerminateAccepted (s : Snapshot) (event : InternalEvent) : Decision :=
  if s.state = .stopping || s.state = .finalizing then
    if !s.processExitConfirmed then acceptEvent s event else reject .commandNotAllowedInState
  else if s.state.isTerminal then reject .commandNotAllowedInState
  else if s.state = .admitted || s.state = .preparing || s.state = .running then acceptEvent s event
  else rejectState

def decideFinalizingTimeout (s : Snapshot) (event : InternalEvent) (p : TimeoutExpiredPayload) :
    Decision :=
  if p.phase ≠ .execution then reject .timeoutPhaseMismatch
  else if s.latchedReason.isNone && s.completionCandidate then acceptEvent s event
  else if s.latchedReason = some .failed || s.latchedReason = some .cancelled ||
      s.latchedReason = some .terminated || s.latchedReason = some .timedOut then acceptEvent s event
  else reject .timeoutPhaseMismatch

def decideTimeoutExpired (s : Snapshot) (event : InternalEvent) : Decision :=
  match event.payload with
  | .timeoutExpired p =>
      if s.state = .preparing then
        if p.phase = .preparation then acceptEvent s event else reject .timeoutPhaseMismatch
      else if s.state = .running then
        if p.phase = .execution then acceptEvent s event else reject .timeoutPhaseMismatch
      else if s.state = .stopping then
        if p.phase = .execution || p.phase = .cooperativeStop then acceptEvent s event
        else reject .timeoutPhaseMismatch
      else if s.state = .finalizing then decideFinalizingTimeout s event p
      else if !s.state.isTerminal then rejectState
      else if p.phase ≠ .processExitConfirmation then reject .timeoutPhaseMismatch
      else if s.processExitConfirmed then reject .invariantViolation
      else acceptEvent s event
  | _ => reject .invalidEventPayload

def decideWorkerOutcome (s : Snapshot) (event : InternalEvent) : Decision :=
  match event.payload with
  | .workerEvent p =>
      if s.state.isTerminal || s.state = .finalizing then
        if s.workerId = some p.workerId then
          accept s .lateWorkerEvent
            (.lateWorkerEvent ⟨event.eventType, p.workerId, p.eventSequence⟩)
        else reject .invariantViolation
      else if s.state ≠ .running && s.state ≠ .stopping &&
          !(s.state = .preparing && event.eventType = .workerFailed) then rejectState
      else if s.workerId = some p.workerId then acceptEvent s event
      else reject .invariantViolation
  | _ => reject .invalidEventPayload

def decideProcessExitConfirmed (s : Snapshot) (event : InternalEvent) : Decision :=
  if s.state = .admitted then rejectState
  else match event.payload with
    | .processExitConfirmed p =>
        if s.launchOperationId ≠ some p.launchOperationId then reject .invariantViolation
        else if (s.state = .finalizing || s.state.isTerminal) && s.processExitConfirmed &&
            s.completionMode ≠ p.completionMode then reject .invariantViolation
        else acceptEvent s event
    | _ => reject .invariantViolation

def decideSessionRetain (s : Snapshot) (event : InternalEvent) (expectedStatus : RetentionStatus) :
    Decision :=
  if s.state ≠ .finalizing then rejectState
  else match event.payload with
    | .session p =>
        if s.sessionRetentionStatus = expectedStatus && p.sessionId = s.sessionId then acceptEvent s event
        else reject .invariantViolation
    | _ => reject .invariantViolation

def decideFinalizationCompleted (s : Snapshot) (event : InternalEvent) : Decision :=
  if s.state ≠ .finalizing then rejectState
  else if s.sessionRetentionStatus ≠ .retained then reject .requiredFinalizationFactMissing
  else if s.finalizationStatus = .pending then acceptEvent s event
  else reject .invariantViolation

def decideFinalizationFailed (s : Snapshot) (event : InternalEvent) : Decision :=
  if s.state ≠ .finalizing then rejectState
  else if s.finalizationStatus ≠ .pending || (s.latchedReason.isNone && !s.completionCandidate) then
    reject .invariantViolation
  else acceptEvent s event

def decideTerminalOutcomeCommitted (s : Snapshot) (event : InternalEvent) : Decision :=
  if s.state ≠ .finalizing then rejectState
  else match event.payload with
    | .terminalOutcome p =>
        if s.finalizationStatus = .pending then reject .requiredFinalizationFactMissing
        else
          let succeeded := p.outcome = .succeeded && s.latchedReason.isNone && s.completionCandidate &&
            s.finalizationStatus = .completed
          let failed := p.outcome = .failed && s.latchedReason = some .failed
          let cancelled := p.outcome = .cancelled && s.latchedReason = some .cancelled
          let terminated := p.outcome = .terminated && s.latchedReason = some .terminated
          let timedOut := p.outcome = .timedOut && s.latchedReason = some .timedOut
          if succeeded || failed || cancelled || terminated || timedOut then acceptEvent s event
          else reject .terminalOutcomeMismatch
    | _ => reject .requiredFinalizationFactMissing

def decideResourcesReleased (s : Snapshot) (event : InternalEvent) : Decision :=
  if !s.state.isTerminal then rejectState
  else if !s.processExitConfirmed then reject .invariantViolation
  else match event.payload with
    | .resourcesReleased p =>
        if s.allocationId ≠ some p.allocationId || s.allocationDigest ≠ some p.allocationDigest then
          reject .invariantViolation
        else if s.resourceStatus = .committed || s.resourceStatus = .released then acceptEvent s event
        else reject .invariantViolation
    | _ => reject .invariantViolation

def decideCleanupStatusRecorded (s : Snapshot) (event : InternalEvent) : Decision :=
  if !s.state.isTerminal then rejectState
  else match event.payload with
    | .cleanupStatus p =>
        if s.cleanupStatus = .pending || s.cleanupStatus = p.status then acceptEvent s event
        else reject .invariantViolation
    | _ => reject .invariantViolation

/-- The decisions by event type, after the envelope, the payload and the entity were checked. -/
def decideByType (s : Snapshot) (event : InternalEvent) : Decision :=
  match event.eventType with
  | .resourcesCommitted => decideResourcesCommitted s event
  | .workerLaunchIntent => decideWorkerLaunchIntent s event
  | .workerLaunchObserved => decideWorkerLaunchObserved s event
  | .workerRunning => decideWorkerRunning s event
  | .cancelAccepted => decideCancelAccepted s event
  | .terminateAccepted => decideTerminateAccepted s event
  | .timeoutExpired => decideTimeoutExpired s event
  | .workerCompleted | .workerFailed => decideWorkerOutcome s event
  | .processExitConfirmed => decideProcessExitConfirmed s event
  | .sessionRetainRequested => decideSessionRetain s event .notStarted
  | .sessionRetained => decideSessionRetain s event .requested
  | .finalizationCompleted => decideFinalizationCompleted s event
  | .finalizationFailed => decideFinalizationFailed s event
  | .terminalOutcomeCommitted => decideTerminalOutcomeCommitted s event
  | .resourcesReleased => decideResourcesReleased s event
  | .cleanupStatusRecorded => decideCleanupStatusRecorded s event
  | .lateWorkerEvent =>
      if s.state.isTerminal || s.state = .finalizing then acceptEvent s event else rejectState
  | .jobCreated => reject .jobAlreadyExists
  | .invalid => reject .invalidEventPayload

def decideEvent (lib : Libraries) (s : Snapshot) (event : InternalEvent) : Decision :=
  if !validSnapshot s then reject .invariantViolation
  else if event.schemaVersion ≠ 1 || event.jobId ≠ s.jobId || !isUuid7 event.jobId ||
      !validInternalPayload lib event.eventType event.payload event.jobId then
    reject .invalidEventPayload
  else if !s.entityExists && event.eventType ≠ .jobCreated then reject .jobNotFound
  else if event.eventType = .jobCreated then
    if s.entityExists then reject .jobAlreadyExists else acceptEvent s event
  else decideByType s event

def decideCandidate (lib : Libraries) (s : Snapshot) (candidate : RawCandidateEvent) : Decision :=
  match normalizeCandidate lib s candidate with
  | .error rejection => .error rejection
  | .ok event => decideEvent lib s event

def decideCommand (s : Snapshot) (command : Command) : Decision :=
  if !validSnapshot s then reject .invariantViolation
  else if command.schemaVersion ≠ 1 || !isUuid7 command.jobId ||
      !isPrincipal command.principalSubject || command.commandType = .invalid then
    reject .invalidEventPayload
  else if command.jobId ≠ s.jobId || !s.entityExists then reject .jobNotFound
  else
    let event := if command.commandType = .cancel then .cancelAccepted else .terminateAccepted
    let proposal := accept s event (.principal ⟨command.principalSubject⟩)
    if command.commandType = .cancel then
      if s.state = .stopping then reject .stopCauseAlreadyLatched
      else if s.state ≠ .admitted && s.state ≠ .preparing && s.state ≠ .running then
        reject .commandNotAllowedInState
      else proposal
    else
      if (s.state = .stopping || s.state = .finalizing) && s.processExitConfirmed then
        reject .commandNotAllowedInState
      else if s.state ≠ .admitted && s.state ≠ .preparing && s.state ≠ .running &&
          s.state ≠ .stopping && s.state ≠ .finalizing then reject .commandNotAllowedInState
      else proposal

def initialSnapshot (jobId sessionId : Uuid) : Snapshot :=
  { jobId, sessionId
    entityExists := false
    state := .admitted
    completionMode := .none
    resourceStatus := .none
    workerLaunchStatus := .notStarted
    processPresence := .absent
    sessionRetentionStatus := .notStarted
    finalizationStatus := .notStarted
    cleanupStatus := .pending }

/-! ## Application

Each function gives the next snapshot and the effects in the order they are added. -/

abbrev Update := Snapshot × List EffectId

def beginFinalizing (s : Snapshot) : Snapshot :=
  { s with state := .finalizing, finalizationStatus := .pending }

def applyJobCreated (s : Snapshot) (p : JobCreatedPayload) : Update :=
  ({ s with
      entityExists := true
      state := .admitted
      sessionId := p.sessionId
      latchedReason := none
      completionCandidate := false
      completionMode := .none
      resourceStatus := .none
      allocationId := none
      allocationDigest := none
      workerLaunchStatus := .notStarted
      launchOperationId := none
      workerId := none
      processPresence := .absent
      processExitConfirmed := false
      sessionRetentionStatus := .notStarted
      finalizationStatus := .notStarted
      cleanupStatus := .pending
      pendingWorkerEventAck := false
      pendingWorkerId := none
      pendingWorkerEventSequence := none }, [])

def applyResourcesCommitted (s : Snapshot) (p : ResourcesCommittedPayload) : Update :=
  ({ s with
      state := .preparing
      resourceStatus := .committed
      allocationId := some p.allocationId
      allocationDigest := some p.allocationDigest }, [.armPreparationTimeout])

def applyWorkerLaunchIntent (s : Snapshot) (p : WorkerLaunchIntentPayload) : Update :=
  ({ s with
      workerLaunchStatus := .intentRecorded
      launchOperationId := some p.operationId
      workerId := some p.workerId
      processPresence := .unknown }, [.launchWorkerOnce])

def applyWorkerLaunchObserved (s : Snapshot) (p : WorkerLaunchObservedPayload) : Update :=
  if p.started then ({ s with workerLaunchStatus := .observed, processPresence := .present }, [])
  else
    (beginFinalizing { s with
      workerLaunchStatus := .failed
      processPresence := .absent
      latchedReason := some .failed
      completionMode := .processAlreadyExited
      processExitConfirmed := true }, [.disarmPreparationTimeout])

def applyWorkerRunning (s : Snapshot) : Update :=
  ({ s with state := .running, processPresence := .present },
    [.disarmPreparationTimeout, .armExecutionTimeout])

def disarmPreparation (s : Snapshot) : List EffectId :=
  if s.state = .preparing then [.disarmPreparationTimeout] else []

def applyCancelAccepted (s : Snapshot) : Update :=
  if s.state = .admitted || (s.state = .preparing && s.processPresence = .absent) then
    (beginFinalizing { s with
      latchedReason := some .cancelled
      completionMode := .processAlreadyExited
      processExitConfirmed := true }, disarmPreparation s)
  else
    ({ s with latchedReason := some .cancelled, completionMode := .cooperative, state := .stopping },
      disarmPreparation s ++ [.requestCooperativeStop, .armCooperativeStopTimeout])

def forcedStopEffects : List EffectId :=
  [.requestForcedStop, .disarmCooperativeStopTimeout, .armProcessExitConfirmationTimeoutIfNeeded]

def applyTerminateAccepted (s : Snapshot) : Update :=
  if s.state = .stopping || s.state = .finalizing then
    ({ s with completionMode := .forced }, forcedStopEffects)
  else if s.state = .admitted || (s.state = .preparing && s.processPresence = .absent) then
    (beginFinalizing { s with
      latchedReason := some .terminated
      completionMode := .processAlreadyExited
      processExitConfirmed := true }, disarmPreparation s)
  else
    ({ s with latchedReason := some .terminated, completionMode := .forced, state := .stopping },
      disarmPreparation s ++ forcedStopEffects)

def applyPreparationTimeout (s : Snapshot) : Update :=
  if s.processPresence = .absent then
    (beginFinalizing { s with
      latchedReason := some .timedOut
      completionMode := .processAlreadyExited
      processExitConfirmed := true }, [.disarmPreparationTimeout])
  else
    ({ s with latchedReason := some .timedOut, completionMode := .cooperative, state := .stopping },
      [.disarmPreparationTimeout, .requestCooperativeStop, .armCooperativeStopTimeout])

def applyFinalizingExecutionTimeout (s : Snapshot) : Update :=
  let hadSuccessCandidate := s.latchedReason.isNone && s.completionCandidate
  let latched := if hadSuccessCandidate then
    { s with latchedReason := some .timedOut, completionCandidate := false } else s
  if s.processExitConfirmed && hadSuccessCandidate then
    ({ latched with completionMode := .processAlreadyExited }, [])
  else if s.processExitConfirmed then (latched, [])
  else ({ latched with completionMode := .forced }, forcedStopEffects)

def applyStoppingExecutionTimeout (s : Snapshot) : Update :=
  ({ s with completionMode := .forced },
    [.disarmExecutionTimeout, .disarmCooperativeStopTimeout, .requestForcedStop,
      .armProcessExitConfirmationTimeoutIfNeeded])

def applyRunningExecutionTimeout (s : Snapshot) : Update :=
  ({ s with latchedReason := some .timedOut, completionMode := .cooperative, state := .stopping },
    [.requestCooperativeStop, .armCooperativeStopTimeout])

def applyExecutionTimeout (s : Snapshot) : Update :=
  if s.state = .finalizing then applyFinalizingExecutionTimeout s
  else if s.state = .stopping then applyStoppingExecutionTimeout s
  else if s.state = .running then applyRunningExecutionTimeout s
  else (s, [])

def applyCooperativeStopTimeout (s : Snapshot) : Update :=
  ({ s with completionMode := .forced },
    [.disarmCooperativeStopTimeout, .requestForcedStop, .armProcessExitConfirmationTimeoutIfNeeded])

def applyProcessExitConfirmationTimeout (s : Snapshot) : Update :=
  ({ s with cleanupStatus := .incomplete }, [.requestForcedStop, .quarantineResources, .setReadinessFalse])

def applyTimeoutExpired (s : Snapshot) (p : TimeoutExpiredPayload) : Update :=
  match p.phase with
  | .preparation => applyPreparationTimeout s
  | .execution => applyExecutionTimeout s
  | .cooperativeStop => applyCooperativeStopTimeout s
  | .processExitConfirmation => applyProcessExitConfirmationTimeout s
  | .invalid => (s, [])

def addWorkerAck (s : Snapshot) (p : WorkerEventPayload) : Snapshot :=
  { s with
    pendingWorkerEventAck := true
    pendingWorkerId := some p.workerId
    pendingWorkerEventSequence := some p.eventSequence }

def disarmCooperativeStop (s : Snapshot) : List EffectId :=
  if s.state = .stopping then [.disarmCooperativeStopTimeout] else []

def applyWorkerCompleted (s : Snapshot) (p : WorkerEventPayload) : Update :=
  let candidate := if s.state = .running then { s with completionCandidate := true } else s
  (addWorkerAck (beginFinalizing candidate) p, disarmCooperativeStop s)

def applyWorkerFailed (s : Snapshot) (p : WorkerEventPayload) : Update :=
  let latched := if s.state = .preparing || s.state = .running then
    { s with latchedReason := some .failed } else s
  (addWorkerAck (beginFinalizing latched) p, disarmPreparation s ++ disarmCooperativeStop s)

def clearPendingWorkerAck (s : Snapshot) : Snapshot :=
  { s with pendingWorkerEventAck := false, pendingWorkerId := none, pendingWorkerEventSequence := none }

def confirmExit (s : Snapshot) : Snapshot :=
  clearPendingWorkerAck { s with processExitConfirmed := true, processPresence := .absent }

def applyProcessExitConfirmed (s : Snapshot) (p : ProcessExitConfirmedPayload) : Update :=
  if s.state = .finalizing || s.state.isTerminal then
    if s.processExitConfirmed then (s, [])
    else ({ confirmExit s with completionMode := p.completionMode },
      [.disarmCooperativeStopTimeout, .disarmProcessExitConfirmationTimeout])
  else if s.state = .preparing then
    (beginFinalizing { confirmExit s with
      completionMode := .processAlreadyExited
      latchedReason := some .failed }, [.disarmPreparationTimeout])
  else if s.state = .running then
    (beginFinalizing { confirmExit s with
      completionMode := .processAlreadyExited
      latchedReason := some .failed }, [])
  else if s.state = .stopping then
    (beginFinalizing (confirmExit s), [.disarmCooperativeStopTimeout, .disarmProcessExitConfirmationTimeout])
  else (confirmExit s, [])

def applyFinalizationFailed (s : Snapshot) : Update :=
  let failed := { s with finalizationStatus := .failed, cleanupStatus := .incomplete }
  if s.latchedReason.isNone && s.completionCandidate then
    ({ failed with latchedReason := some .failed, completionCandidate := false }, [])
  else (failed, [])

def jobStateForOutcome : TerminalOutcome → JobState
  | .succeeded => .succeeded
  | .failed => .failed
  | .cancelled => .cancelled
  | .terminated => .terminated
  | .timedOut | .invalid => .timedOut

def applyTerminalOutcomeCommitted (s : Snapshot) (p : TerminalOutcomePayload) : Update :=
  ({ s with
      state := jobStateForOutcome p.outcome
      finalizationStatus := if s.finalizationStatus ≠ .failed then .completed else s.finalizationStatus },
    [.disarmExecutionTimeout, .ackTerminalWorkerEventIfPending, .publishTerminalResult,
      .armProcessExitConfirmationTimeoutIfNeeded])

/-- `none` where the source returns false or `std::get` meets another alternative; a decision has
excluded both. -/
def applyAuthorizedEvent (s : Snapshot) (type : EventType) (payload : EventPayload) : Option Update :=
  match type, payload with
  | .jobCreated, .jobCreated p => some (applyJobCreated s p)
  | .resourcesCommitted, .resourcesCommitted p => some (applyResourcesCommitted s p)
  | .workerLaunchIntent, .workerLaunchIntent p => some (applyWorkerLaunchIntent s p)
  | .workerLaunchObserved, .workerLaunchObserved p => some (applyWorkerLaunchObserved s p)
  | .workerRunning, _ => some (applyWorkerRunning s)
  | .cancelAccepted, _ => some (applyCancelAccepted s)
  | .terminateAccepted, _ => some (applyTerminateAccepted s)
  | .timeoutExpired, .timeoutExpired p => some (applyTimeoutExpired s p)
  | .workerCompleted, .workerEvent p => some (applyWorkerCompleted s p)
  | .workerFailed, .workerEvent p => some (applyWorkerFailed s p)
  | .processExitConfirmed, .processExitConfirmed p => some (applyProcessExitConfirmed s p)
  | .sessionRetainRequested, _ =>
      some ({ s with sessionRetentionStatus := .requested }, [.retainSessionSameIdentity])
  | .sessionRetained, _ => some ({ s with sessionRetentionStatus := .retained }, [])
  | .finalizationCompleted, _ => some ({ s with finalizationStatus := .completed }, [])
  | .finalizationFailed, _ => some (applyFinalizationFailed s)
  | .terminalOutcomeCommitted, .terminalOutcome p => some (applyTerminalOutcomeCommitted s p)
  | .resourcesReleased, _ => some ({ s with resourceStatus := .released }, [])
  | .cleanupStatusRecorded, .cleanupStatus p => some ({ s with cleanupStatus := p.status }, [])
  | .lateWorkerEvent, _ => some (s, [.ackLateWorkerEvent])
  | _, _ => none

def PreEnvelopeProposal.event (proposal : PreEnvelopeProposal) : InternalEvent :=
  ⟨proposal.schemaVersion, proposal.jobId, proposal.eventType, proposal.payload⟩

def apply (lib : Libraries) (before : Snapshot) (proposal : PreEnvelopeProposal) : ApplyResult :=
  if !validSnapshot before then
    ⟨before, [], some { schemaVersion := 1, reason := .invariantViolation }⟩
  else match decideEvent lib before proposal.event with
    | .error rejection => ⟨before, [], some rejection⟩
    | .ok authorized =>
        if authorized.schemaVersion ≠ proposal.schemaVersion || authorized.jobId ≠ proposal.jobId ||
            authorized.eventType ≠ proposal.eventType then
          ⟨before, [], some { schemaVersion := 1, reason := .invariantViolation }⟩
        else match applyAuthorizedEvent before proposal.eventType proposal.payload with
          | none => ⟨before, [], some { schemaVersion := 1, reason := .invalidEventPayload }⟩
          | some (snapshot, effects) => ⟨snapshot, effects, none⟩

/-! ## Resolution and retirement

The policy of `job_orchestrator.hpp` that replay and the writer share. -/

def isUnresolved (s : Snapshot) : Bool :=
  !s.state.isTerminal || s.resourceStatus = .committed || s.cleanupStatus = .pending

def isClosed (s : Snapshot) : Bool :=
  !isUnresolved s && (!s.pendingWorkerEventAck || s.processExitConfirmed)

def oldestClosed (count : Nat) (snapshotAt : Nat → Option Snapshot) (sequenceAt : Nat → UInt64) : Option Nat :=
  (List.range count).foldl (fun oldest index =>
    if (snapshotAt index).any isClosed && oldest.all (fun o => sequenceAt index < sequenceAt o) then some index
    else oldest) none

/-! ## Runs -/

inductive Proposed (lib : Libraries) (s : Snapshot) (proposal : PreEnvelopeProposal) : Prop
  | command (c : Command) : decideCommand s c = .ok proposal → Proposed lib s proposal
  | event (e : InternalEvent) : decideEvent lib s e = .ok proposal → Proposed lib s proposal

inductive Reachable (lib : Libraries) (start : Snapshot) : Snapshot → Prop
  | start : Reachable lib start start
  | step {s : Snapshot} {proposal : PreEnvelopeProposal} : Reachable lib start s →
      Proposed lib s proposal → Reachable lib start (apply lib s proposal).snapshot

def Accepts (lib : Libraries) (s : Snapshot) (proposal : PreEnvelopeProposal) (t : Snapshot) : Prop :=
  Proposed lib s proposal ∧ t = (apply lib s proposal).snapshot

abbrev Run (lib : Libraries) : Snapshot → List (Snapshot × PreEnvelopeProposal) → Snapshot → Prop :=
  Trace (Accepts lib)

/-- The run that proposes these in order; `none` where one is not accepted as it is. -/
def runProposals (lib : Libraries) :
    Snapshot → List PreEnvelopeProposal → Option (List (Snapshot × PreEnvelopeProposal) × Snapshot)
  | s, [] => some ([], s)
  | s, proposal :: rest =>
      if decideEvent lib s proposal.event = .ok proposal then
        (runProposals lib (apply lib s proposal).snapshot rest).map fun run => ((s, proposal) :: run.1, run.2)
      else none

end Sitometron.Core
