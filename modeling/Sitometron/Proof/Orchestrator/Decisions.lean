import Sitometron.Proof.Core.History
import Sitometron.Proof.Journal.Derivation
import Sitometron.Proof.Orchestrator.Turns

/-!
# Decisions of a turn

What the reducer's acceptance says about the input of a turn, and that a command is decided as the event it asks for.
-/

namespace Sitometron.Core

def Command.event (command : Command) : InternalEvent where
  schemaVersion := 1
  jobId := command.jobId
  eventType := if command.commandType = .cancel then .cancelAccepted else .terminateAccepted
  payload := .principal ⟨command.principalSubject⟩

theorem validSnapshot_state {s : Snapshot} (valid : validSnapshot s = true) : s.state ≠ .invalid := by
  simp only [validSnapshot, hasValidSnapshotEnums, Bool.and_eq_true, decide_eq_true_eq] at valid
  tauto

def emissions : EventType → List (List EffectId)
  | .resourcesCommitted => [[.armPreparationTimeout]]
  | .workerLaunchIntent => [[.launchWorkerOnce]]
  | .workerLaunchObserved => [[], [.disarmPreparationTimeout]]
  | .workerRunning => [[.disarmPreparationTimeout, .armExecutionTimeout]]
  | .cancelAccepted =>
      [[], [.disarmPreparationTimeout], [.requestCooperativeStop, .armCooperativeStopTimeout],
        [.disarmPreparationTimeout, .requestCooperativeStop, .armCooperativeStopTimeout]]
  | .terminateAccepted =>
      [[], [.disarmPreparationTimeout], forcedStopEffects, .disarmPreparationTimeout :: forcedStopEffects]
  | .timeoutExpired =>
      [[], [.disarmPreparationTimeout], [.disarmPreparationTimeout, .requestCooperativeStop, .armCooperativeStopTimeout],
        [.requestCooperativeStop, .armCooperativeStopTimeout], forcedStopEffects,
        [.disarmExecutionTimeout, .disarmCooperativeStopTimeout, .requestForcedStop,
          .armProcessExitConfirmationTimeoutIfNeeded],
        [.disarmCooperativeStopTimeout, .requestForcedStop, .armProcessExitConfirmationTimeoutIfNeeded],
        [.requestForcedStop, .quarantineResources, .setReadinessFalse]]
  | .workerCompleted => [[], [.disarmCooperativeStopTimeout]]
  | .workerFailed => [[], [.disarmPreparationTimeout], [.disarmCooperativeStopTimeout]]
  | .processExitConfirmed =>
      [[], [.disarmPreparationTimeout], [.disarmCooperativeStopTimeout, .disarmProcessExitConfirmationTimeout]]
  | .sessionRetainRequested => [[.retainSessionSameIdentity]]
  | .terminalOutcomeCommitted =>
      [[.disarmExecutionTimeout, .ackTerminalWorkerEventIfPending, .publishTerminalResult,
        .armProcessExitConfirmationTimeoutIfNeeded]]
  | .lateWorkerEvent => [[.ackLateWorkerEvent]]
  | _ => [[]]

section Moves

variable {s : Snapshot} {type : EventType} {payload : EventPayload} {u : Update}

theorem Moves.created_iff (moves : Moves s type payload u) : type = .jobCreated ↔ s.entityExists = false := by
  cases moves <;> simp_all

theorem Moves.effects_mem (moves : Moves s type payload u) : u.2 ∈ emissions type := by
  cases moves
  case workerLaunchObserved =>
    rw [applyWorkerLaunchObserved]
    split <;> simp [emissions]
  case cancelAccepted =>
    rw [applyCancelAccepted, disarmPreparation]
    split <;> split <;> simp [emissions]
  case terminateAccepted | terminateEscalated =>
    rw [applyTerminateAccepted, disarmPreparation]
    split
    · simp [emissions]
    · split <;> split <;> simp [emissions]
  case preparationTimeout =>
    rw [applyPreparationTimeout]
    split <;> simp [emissions]
  case finalizingTimeout =>
    simp only [applyFinalizingExecutionTimeout]
    repeat' split
    all_goals simp [emissions]
  case workerCompleted =>
    simp only [applyWorkerCompleted, disarmCooperativeStop]
    split <;> simp [emissions]
  case workerFailed state _ =>
    simp only [applyWorkerFailed, disarmPreparation, disarmCooperativeStop]
    rcases state with state | state | state <;> simp [emissions, state]
  case processExitConfirmed =>
    rw [applyProcessExitConfirmed]
    repeat' split
    all_goals simp [emissions]
  case finalizationFailed =>
    simp only [applyFinalizationFailed]
    split <;> simp [emissions]
  all_goals simp [emissions, applyJobCreated, applyResourcesCommitted, applyWorkerLaunchIntent, applyWorkerRunning,
    applyRunningExecutionTimeout, applyStoppingExecutionTimeout, applyCooperativeStopTimeout,
    applyProcessExitConfirmationTimeout, applyTerminalOutcomeCommitted]

theorem Moves.effects_le (moves : Moves s type payload u) : u.2.length ≤ 4 := by
  have few : ∀ effects ∈ emissions type, effects.length ≤ 4 := by cases type <;> decide
  exact few _ moves.effects_mem

theorem Moves.arms_le (moves : Moves s type payload u) : (u.2.filterMap Orchestrator.armedPhase).length ≤ 1 := by
  have few : ∀ effects ∈ emissions type, (effects.filterMap Orchestrator.armedPhase).length ≤ 1 := by cases type <;> decide
  exact few _ moves.effects_mem

end Moves

theorem decideCancelAccepted_eq {s : Snapshot} {event : InternalEvent} (known : s.state ≠ .invalid) :
    decideCancelAccepted s event = if s.state = .stopping then reject .stopCauseAlreadyLatched
      else if s.state ≠ .admitted && s.state ≠ .preparing && s.state ≠ .running then reject .commandNotAllowedInState
      else acceptEvent s event := by
  rw [decideCancelAccepted]
  cases state : s.state with
  | invalid => exact absurd state known
  | _ => rfl

theorem decideTerminateAccepted_eq {s : Snapshot} {event : InternalEvent} (known : s.state ≠ .invalid) :
    decideTerminateAccepted s event = if (s.state = .stopping || s.state = .finalizing) && s.processExitConfirmed then
        reject .commandNotAllowedInState
      else if s.state ≠ .admitted && s.state ≠ .preparing && s.state ≠ .running && s.state ≠ .stopping &&
          s.state ≠ .finalizing then reject .commandNotAllowedInState
      else acceptEvent s event := by
  rw [decideTerminateAccepted]
  cases state : s.state with
  | invalid => exact absurd state known
  | stopping => cases s.processExitConfirmed <;> rfl
  | finalizing => cases s.processExitConfirmed <;> rfl
  | _ => rfl

theorem decideCommand_eq_decideEvent (lib : Libraries) {s : Snapshot} {command : Command} (version : command.schemaVersion = 1)
    (known : command.commandType ≠ .invalid) (job : command.jobId = s.jobId) :
    decideCommand s command = decideEvent lib s command.event := by
  have payload : validInternalPayload lib command.event.eventType command.event.payload command.event.jobId =
      isPrincipal command.principalSubject := by
    rw [Command.event]
    dsimp only
    split <;> simp [validInternalPayload, payloadMatches]
  have type : command.event.eventType ≠ .jobCreated := by
    rw [Command.event]
    dsimp only
    split <;> decide
  rw [decideCommand, decideEvent, payload]
  cases valid : validSnapshot s with
  | false => rfl
  | true =>
      have state := validSnapshot_state valid
      cases lawful : isUuid7 command.jobId && isPrincipal command.principalSubject with
      | false =>
          rcases Bool.and_eq_false_iff.1 lawful with canonical | principal
          · simp [Command.event, canonical]
          · simp [principal]
      | true =>
          obtain ⟨canonical, principal⟩ := Bool.and_eq_true_iff.1 lawful
          cases present : s.entityExists with
          | false =>
              simp only [Command.event] at type
              simp [Command.event, version, canonical, principal, job, known, type]
          | true =>
              cases order : command.commandType with
              | invalid => exact absurd order known
              | cancel =>
                  simp [Command.event, version, canonical, principal, job, order, decideByType, decideCancelAccepted_eq state,
                    acceptEvent]
              | terminate =>
                  simp [Command.event, version, canonical, principal, job, order, decideByType,
                    decideTerminateAccepted_eq state, acceptEvent]

namespace Orchestrator

variable {lib : Libraries} {before : Snapshot} {input : Input} {proposal : PreEnvelopeProposal}

theorem Input.isCreation_candidate {raw : RawCandidateEvent} {type : EventType} (parsed : parseEvent raw.eventType = some type) :
    (Input.candidate raw).isCreation = true ↔ type = .jobCreated := by
  have named : raw.eventType = type.toText := by simpa using List.find?_some parsed
  rw [Input.isCreation, named, decide_eq_true_eq]
  cases type <;> decide

structure Decides (lib : Libraries) (before : Snapshot) (input : Input) (proposal : PreEnvelopeProposal) : Prop where
  proposed : Proposed lib before proposal
  job : input.jobId = before.jobId
  creation : input.isCreation = true ↔ before.entityExists = false

theorem decides (accepted : State.decideInput lib before input = .ok proposal) : Decides lib before input proposal := by
  cases input with
  | shutdown => cases accepted
  | command order =>
      obtain ⟨-, -, -, -, job, present, -⟩ := decideCommand_cases accepted
      exact ⟨.command order accepted, job, by simp [Input.isCreation, present]⟩
  | candidate raw =>
      obtain ⟨event, normal, decided⟩ := decideCandidate_eq_ok_iff.1 accepted
      obtain ⟨⟨-, job, -⟩, type, json, payload, parsed, -, -, -, -, rfl⟩ := Journal.normalizeCandidate_eq_ok_iff.1 normal
      refine ⟨.event _ decided, job, (Input.isCreation_candidate parsed).trans ?_⟩
      obtain ⟨-, -, -, -, -, ⟨created, absent, -⟩ | ⟨other, present, -⟩⟩ := decideEvent_eq_ok_iff.1 decided
      · exact iff_of_true created absent
      · exact iff_of_false other (by simp [present])

namespace Decides

theorem applied (decides : Decides lib before input proposal) : (apply lib before proposal).rejection = none :=
  apply_of_decided decides.proposed.decided

theorem moves (decides : Decides lib before input proposal) :
    Moves before proposal.eventType proposal.payload ((apply lib before proposal).snapshot, (apply lib before proposal).effects) :=
  (Transition.of_apply decides.applied).moves

theorem created (decides : Decides lib before input proposal) :
    proposal.eventType = .jobCreated ↔ input.isCreation = true := decides.moves.created_iff.trans decides.creation.symm

theorem present (decides : Decides lib before input proposal) : (apply lib before proposal).snapshot.entityExists = true :=
  decides.moves.identity.1

theorem same (decides : Decides lib before input proposal) : (apply lib before proposal).snapshot.jobId = before.jobId :=
  decides.moves.identity.2

end Decides

end Orchestrator

end Sitometron.Core
