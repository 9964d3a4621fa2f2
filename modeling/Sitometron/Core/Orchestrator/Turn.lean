import Sitometron.Core.Orchestrator.Types

/-!
# What a turn prepares before its commit

`PlanDerivedSources`, `PrepareEffects`, `PrepareTrace` and `RequiredTraceSlots`.
-/

namespace Sitometron.Core.Orchestrator

def armedPhase : EffectId → Option (Fin 4)
  | .armPreparationTimeout => some 0
  | .armExecutionTimeout => some 1
  | .armCooperativeStopTimeout => some 2
  | .armProcessExitConfirmationTimeoutIfNeeded => some 3
  | _ => none

def disarmedPhase : EffectId → Option (Fin 4)
  | .disarmPreparationTimeout => some 0
  | .disarmExecutionTimeout => some 1
  | .disarmCooperativeStopTimeout => some 2
  | .disarmProcessExitConfirmationTimeout => some 3
  | _ => none

def timerGate (phase : Fin 4) : GateKind :=
  match phase with
  | 0 => .preparationTimer
  | 1 => .executionTimer
  | 2 => .cooperativeStopTimer
  | 3 => .processExitTimer

def timerName (phase : Fin 4) : Bytes :=
  match phase with
  | 0 => text "preparation"
  | 1 => text "execution"
  | 2 => text "cooperative_stop"
  | 3 => text "process_exit_confirmation"

def eventSources : EventType → List GateKind
  | .resourcesCommitted => [.resourcesReleased]
  | .workerLaunchIntent => [.worker, .processExit]
  | .terminalOutcomeCommitted => [.cleanup]
  | _ => []

def planDerivedSources (applied : ApplyResult) (type : EventType) : List GateKind :=
  (.terminate :: (eventSources type ++ (applied.effects.filterMap armedPhase).map timerGate)).take 9

def mappedKind : EffectId → TraceKind
  | .armPreparationTimeout | .armExecutionTimeout | .armCooperativeStopTimeout
  | .armProcessExitConfirmationTimeoutIfNeeded | .disarmPreparationTimeout | .disarmExecutionTimeout
  | .disarmCooperativeStopTimeout | .disarmProcessExitConfirmationTimeout => .timerAction
  | .launchWorkerOnce | .retainSessionSameIdentity | .requestCooperativeStop | .requestForcedStop => .capabilityHandoff
  | .ackTerminalWorkerEventIfPending | .ackLateWorkerEvent => .ackAuthorized
  | .publishTerminalResult => .terminalPublished
  | .quarantineResources | .setReadinessFalse => .safetyAction
  | .invalid => .effect

/-! ## Effects -/

def outcomeText : TerminalOutcome → Bytes
  | .succeeded => text "succeeded"
  | .failed => text "failed"
  | .cancelled => text "cancelled"
  | .terminated => text "terminated"
  | .timedOut => text "timed_out"
  | .invalid => text "invalid"

def publishedOutcome : EventPayload → Bytes
  | .terminalOutcome p => outcomeText p.outcome
  | _ => text "invalid"

def lateSequence (r : Resident) : EventPayload → UInt64
  | .workerEvent p => p.eventSequence
  | .lateWorkerEvent p => p.eventSequence
  | _ => r.workerSequence

def prepareArm (r : Resident) (id : EffectId) (phase : Fin 4) : Option PreparedEffect :=
  if (r.timerGeneration phase).toNat = uint64Max then none
  else
    some { id, mappedKind := mappedKind id
           action := text "timer:arm:" ++ timerName phase ++ text ":" ++ decimal (r.timerGeneration phase + 1).toNat
           timerUpdate := some (phase, r.timerGeneration phase + 1) }

def prepareDisarm (r : Resident) (event : LogicalJobEvent) (id : EffectId) (phase : Fin 4) : PreparedEffect :=
  { id, mappedKind := mappedKind id
    action := text "timer:disarm:" ++ timerName phase ++
      if phase = 2 && event.eventType = .processExitConfirmed then []
      else text ":" ++ decimal (r.timerGeneration phase).toNat }

def prepareStop (id : EffectId) (action : Bytes) (request : StableId → Uuid → Handoff) (applied : ApplyResult) :
    Option PreparedEffect :=
  match applied.snapshot.launchOperationId, applied.snapshot.workerId with
  | some operation, some worker => some { id, mappedKind := mappedKind id, action, handoff := some (request operation worker) }
  | _, _ => none

def prepareEffect (r : Resident) (event : LogicalJobEvent) (applied : ApplyResult) (id : EffectId) : Option PreparedEffect :=
  match id with
  | .armPreparationTimeout => prepareArm r id 0
  | .armExecutionTimeout => prepareArm r id 1
  | .armCooperativeStopTimeout => prepareArm r id 2
  | .armProcessExitConfirmationTimeoutIfNeeded => prepareArm r id 3
  | .disarmPreparationTimeout => some (prepareDisarm r event id 0)
  | .disarmExecutionTimeout => some (prepareDisarm r event id 1)
  | .disarmCooperativeStopTimeout => some (prepareDisarm r event id 2)
  | .disarmProcessExitConfirmationTimeout => some (prepareDisarm r event id 3)
  | .launchWorkerOnce =>
      match event.payload with
      | .workerLaunchIntent intent =>
          some { id, mappedKind := mappedKind id, action := text "handoff:launch:" ++ intent.operationId.value
                 handoff := some (.launch event.jobId intent) }
      | _ => none
  | .retainSessionSameIdentity =>
      some { id, mappedKind := mappedKind id, action := text "handoff:session-retain"
             handoff := some (.retainSession event.jobId applied.snapshot.sessionId) }
  | .ackTerminalWorkerEventIfPending =>
      some { id, mappedKind := mappedKind id, action := text "ack:terminal:" ++ decimal r.workerSequence.toNat }
  | .ackLateWorkerEvent =>
      some { id, mappedKind := mappedKind id, action := text "ack:late:" ++ decimal (lateSequence r event.payload).toNat }
  | .publishTerminalResult =>
      some { id, mappedKind := mappedKind id, action := text "publish:" ++ publishedOutcome event.payload }
  | .quarantineResources => some { id, mappedKind := mappedKind id, action := text "safety:quarantine" }
  | .setReadinessFalse => some { id, mappedKind := mappedKind id, action := text "safety:set_readiness_false" }
  | .requestCooperativeStop => prepareStop id (text "handoff:cooperative-stop") (.cooperativeStop event.jobId) applied
  | .requestForcedStop => prepareStop id (text "handoff:forced-stop") (.forcedStop event.jobId) applied
  | .invalid => none

def validEffects (applied : ApplyResult) : List EffectId := applied.effects.filter (· ≠ .invalid)

def prepareEffects (c : Setup) (r : Resident) (event : LogicalJobEvent) (applied : ApplyResult) :
    Except Fault (List PreparedEffect) :=
  if (validEffects applied).length > 4 || (validEffects applied).length > c.handoffCapacity then .error .effectsRefused
  else match (validEffects applied).mapM (prepareEffect r event applied) with
    | none => .error .thrown
    | some operations => .ok operations

/-! ## Trace -/

def tracedSources : EventType → List Bytes
  | .resourcesCommitted => [text "source:timer:preparation", text "source:resources_released"]
  | .workerLaunchIntent => [text "source:worker", text "source:process_exit"]
  | .terminalOutcomeCommitted => [text "source:timer:process_exit_confirmation", text "source:cleanup"]
  | .cancelAccepted => [text "source:timer:cooperative_stop"]
  | .terminateAccepted => [text "source:timer:process_exit_confirmation"]
  | _ => []

def prepareTrace (event : LogicalJobEvent) (operations : List PreparedEffect) : List TraceRecord :=
  let record (kind : TraceKind) (effectId : EffectId) (action : Bytes) : TraceRecord :=
    { kind, journalSequence := event.sequence, eventType := event.eventType, effectId, action }
  [record .journalAttempt .invalid [], record .journalCommitted .invalid [], record .snapshotActivated .invalid []] ++
    (tracedSources event.eventType).map (record .sourceRegistered .invalid) ++
    (operations.flatMap fun operation =>
      [record .effect operation.id [], record operation.mappedKind operation.id operation.action]) ++
    [record .responseReleased .invalid []]

def sourceSlots : EventType → Nat
  | .resourcesCommitted | .workerLaunchIntent | .terminalOutcomeCommitted => 2
  | .cancelAccepted | .terminateAccepted => 1
  | _ => 0

def requiredTraceSlots (type : EventType) (applied : ApplyResult) : Nat :=
  1 + 2 + sourceSlots type + 2 * (validEffects applied).length + 1

/-- How many records `ProcessEntry` publishes for the sources it has registered. -/
def traceSourceCount (type : EventType) : Nat :=
  if type = .resourcesCommitted || type = .workerLaunchIntent || type = .terminalOutcomeCommitted then 2
  else if type = .cancelAccepted || type = .terminateAccepted then 1
  else 0

end Sitometron.Core.Orchestrator
