import Sitometron.Core.Reducer

/-!
# What one application can do

`Moves` lists the accepted events with their guards and their updates. Every fact about runs of the
reducer is read off this relation; the decision functions are not unfolded again.
-/

namespace Sitometron.Core

def OutcomeAgrees (s : Snapshot) : TerminalOutcome → Prop
  | .succeeded => s.latchedReason = none ∧ s.completionCandidate = true ∧ s.finalizationStatus = .completed
  | .invalid => False
  | outcome => s.latchedReason = some outcome

inductive Moves (s : Snapshot) : EventType → EventPayload → Update → Prop
  | jobCreated (p : JobCreatedPayload) :
      s.entityExists = false → Moves s .jobCreated (.jobCreated p) (applyJobCreated s p)
  | resourcesCommitted (p : ResourcesCommittedPayload) :
      s.entityExists = true → s.state = .admitted →
      Moves s .resourcesCommitted (.resourcesCommitted p) (applyResourcesCommitted s p)
  | workerLaunchIntent (p : WorkerLaunchIntentPayload) :
      s.entityExists = true → s.state = .preparing → s.workerLaunchStatus = .notStarted →
      s.allocationId = some p.allocationId → s.allocationDigest = some p.allocationDigest →
      Moves s .workerLaunchIntent (.workerLaunchIntent p) (applyWorkerLaunchIntent s p)
  | workerLaunchObserved (p : WorkerLaunchObservedPayload) :
      s.entityExists = true → s.state = .preparing → s.launchOperationId = some p.operationId →
      s.workerLaunchStatus = .intentRecorded →
      Moves s .workerLaunchObserved (.workerLaunchObserved p) (applyWorkerLaunchObserved s p)
  | workerRunning (p : WorkerRunningPayload) :
      s.entityExists = true → s.state = .preparing → s.workerLaunchStatus = .observed →
      s.workerId = some p.workerId →
      Moves s .workerRunning (.workerRunning p) (applyWorkerRunning s)
  | cancelAccepted (p : PrincipalPayload) :
      s.entityExists = true → s.state = .admitted ∨ s.state = .preparing ∨ s.state = .running →
      Moves s .cancelAccepted (.principal p) (applyCancelAccepted s)
  | terminateAccepted (p : PrincipalPayload) :
      s.entityExists = true → s.state = .admitted ∨ s.state = .preparing ∨ s.state = .running →
      Moves s .terminateAccepted (.principal p) (applyTerminateAccepted s)
  | terminateEscalated (p : PrincipalPayload) :
      s.entityExists = true → s.state = .stopping ∨ s.state = .finalizing →
      s.processExitConfirmed = false →
      Moves s .terminateAccepted (.principal p) (applyTerminateAccepted s)
  | preparationTimeout (generation : UInt64) :
      s.entityExists = true → s.state = .preparing →
      Moves s .timeoutExpired (.timeoutExpired ⟨.preparation, generation⟩) (applyPreparationTimeout s)
  | runningTimeout (generation : UInt64) :
      s.entityExists = true → s.state = .running →
      Moves s .timeoutExpired (.timeoutExpired ⟨.execution, generation⟩) (applyRunningExecutionTimeout s)
  | stoppingTimeout (generation : UInt64) :
      s.entityExists = true → s.state = .stopping →
      Moves s .timeoutExpired (.timeoutExpired ⟨.execution, generation⟩) (applyStoppingExecutionTimeout s)
  | cooperativeStopTimeout (generation : UInt64) :
      s.entityExists = true → s.state = .stopping →
      Moves s .timeoutExpired (.timeoutExpired ⟨.cooperativeStop, generation⟩)
        (applyCooperativeStopTimeout s)
  | finalizingTimeout (generation : UInt64) :
      s.entityExists = true → s.state = .finalizing →
      s.latchedReason = none ∧ s.completionCandidate = true ∨ s.latchedReason = some .failed ∨
        s.latchedReason = some .cancelled ∨ s.latchedReason = some .terminated ∨
        s.latchedReason = some .timedOut →
      Moves s .timeoutExpired (.timeoutExpired ⟨.execution, generation⟩) (applyFinalizingExecutionTimeout s)
  | exitConfirmationTimeout (generation : UInt64) :
      s.entityExists = true → s.state.isTerminal = true → s.processExitConfirmed = false →
      Moves s .timeoutExpired (.timeoutExpired ⟨.processExitConfirmation, generation⟩)
        (applyProcessExitConfirmationTimeout s)
  | workerCompleted (p : WorkerEventPayload) :
      s.entityExists = true → s.state = .running ∨ s.state = .stopping → s.workerId = some p.workerId →
      Moves s .workerCompleted (.workerEvent p) (applyWorkerCompleted s p)
  | workerFailed (p : WorkerEventPayload) :
      s.entityExists = true → s.state = .preparing ∨ s.state = .running ∨ s.state = .stopping →
      s.workerId = some p.workerId → Moves s .workerFailed (.workerEvent p) (applyWorkerFailed s p)
  | processExitConfirmed (p : ProcessExitConfirmedPayload) :
      s.entityExists = true → s.state ≠ .admitted → s.launchOperationId = some p.launchOperationId →
      (s.state = .finalizing ∨ s.state.isTerminal = true → s.processExitConfirmed = true →
        s.completionMode = p.completionMode) →
      Moves s .processExitConfirmed (.processExitConfirmed p) (applyProcessExitConfirmed s p)
  | sessionRetainRequested (p : SessionPayload) :
      s.entityExists = true → s.state = .finalizing → s.sessionRetentionStatus = .notStarted →
      p.sessionId = s.sessionId →
      Moves s .sessionRetainRequested (.session p)
        ({ s with sessionRetentionStatus := .requested }, [.retainSessionSameIdentity])
  | sessionRetained (p : SessionPayload) :
      s.entityExists = true → s.state = .finalizing → s.sessionRetentionStatus = .requested →
      p.sessionId = s.sessionId →
      Moves s .sessionRetained (.session p) ({ s with sessionRetentionStatus := .retained }, [])
  | finalizationCompleted :
      s.entityExists = true → s.state = .finalizing → s.sessionRetentionStatus = .retained →
      s.finalizationStatus = .pending →
      Moves s .finalizationCompleted .empty ({ s with finalizationStatus := .completed }, [])
  | finalizationFailed :
      s.entityExists = true → s.state = .finalizing → s.finalizationStatus = .pending →
      s.latchedReason ≠ none ∨ s.completionCandidate = true →
      Moves s .finalizationFailed .empty (applyFinalizationFailed s)
  | terminalOutcomeCommitted (p : TerminalOutcomePayload) :
      s.entityExists = true → s.state = .finalizing → s.finalizationStatus ≠ .pending →
      OutcomeAgrees s p.outcome →
      Moves s .terminalOutcomeCommitted (.terminalOutcome p) (applyTerminalOutcomeCommitted s p)
  | resourcesReleased (p : ResourcesReleasedPayload) :
      s.entityExists = true → s.state.isTerminal = true → s.processExitConfirmed = true →
      s.allocationId = some p.allocationId → s.allocationDigest = some p.allocationDigest →
      s.resourceStatus = .committed ∨ s.resourceStatus = .released →
      Moves s .resourcesReleased (.resourcesReleased p) ({ s with resourceStatus := .released }, [])
  | cleanupStatusRecorded (p : CleanupStatusPayload) :
      s.entityExists = true → s.state.isTerminal = true →
      s.cleanupStatus = .pending ∨ s.cleanupStatus = p.status →
      Moves s .cleanupStatusRecorded (.cleanupStatus p) ({ s with cleanupStatus := p.status }, [])
  | lateWorkerEvent (p : LateWorkerEventPayload) :
      s.entityExists = true → s.state.isTerminal = true ∨ s.state = .finalizing →
      Moves s .lateWorkerEvent (.lateWorkerEvent p) (s, [.ackLateWorkerEvent])

section Guards

variable {s : Snapshot} {event : InternalEvent} {proposal : PreEnvelopeProposal} {decision : Decision}
  {reason : RejectionReason}

@[simp] theorem reject_ne_ok : reject reason ≠ .ok proposal := by simp [reject]

@[simp] theorem accept_eq_ok {type : EventType} {payload : EventPayload} :
    accept s type payload = .ok proposal ↔ ⟨1, s.jobId, type, payload⟩ = proposal := by
  simp [accept]

@[simp] theorem ite_reject_left {c : Prop} [Decidable c] :
    (if c then reject reason else decision) = .ok proposal ↔ ¬c ∧ decision = .ok proposal := by
  by_cases h : c <;> simp [h]

@[simp] theorem ite_reject_right {c : Prop} [Decidable c] :
    (if c then decision else reject reason) = .ok proposal ↔ c ∧ decision = .ok proposal := by
  by_cases h : c <;> simp [h]

end Guards

theorem decideEvent_eq_ok_iff {lib : Libraries} {s : Snapshot} {event : InternalEvent}
    {proposal : PreEnvelopeProposal} :
    decideEvent lib s event = .ok proposal ↔
      validSnapshot s = true ∧ event.schemaVersion = 1 ∧ event.jobId = s.jobId ∧
        isUuid7 event.jobId = true ∧
        validInternalPayload lib event.eventType event.payload event.jobId = true ∧
        (event.eventType = .jobCreated ∧ s.entityExists = false ∧ acceptEvent s event = .ok proposal ∨
          event.eventType ≠ .jobCreated ∧ s.entityExists = true ∧ decideByType s event = .ok proposal) := by
  by_cases created : event.eventType = .jobCreated <;> cases present : s.entityExists <;>
    simp [decideEvent, created, present, and_assoc]

theorem decideCandidate_eq_ok_iff {lib : Libraries} {s : Snapshot} {raw : RawCandidateEvent}
    {proposal : PreEnvelopeProposal} :
    decideCandidate lib s raw = .ok proposal ↔
      ∃ e, normalizeCandidate lib s raw = .ok e ∧ decideEvent lib s e = .ok proposal := by
  rw [decideCandidate]
  cases normalizeCandidate lib s raw <;> simp

theorem moves_of_timeoutExpired {s : Snapshot} {version : UInt32} {job : Uuid}
    {p : TimeoutExpiredPayload} {proposal : PreEnvelopeProposal} (present : s.entityExists = true)
    (accepted : decideTimeoutExpired s ⟨version, job, .timeoutExpired, .timeoutExpired p⟩ = .ok proposal) :
    Moves s .timeoutExpired (.timeoutExpired p) (applyTimeoutExpired s p) := by
  obtain ⟨phase, generation⟩ := p
  simp only [decideTimeoutExpired] at accepted
  split at accepted
  next preparing =>
    simp only [ite_reject_right] at accepted
    obtain ⟨rfl, -⟩ := accepted
    exact .preparationTimeout generation present preparing
  split at accepted
  next running =>
    simp only [ite_reject_right] at accepted
    obtain ⟨rfl, -⟩ := accepted
    simpa [applyTimeoutExpired, applyExecutionTimeout, running] using Moves.runningTimeout generation present running
  split at accepted
  next stopping =>
    simp only [ite_reject_right, Bool.or_eq_true, decide_eq_true_eq] at accepted
    obtain ⟨rfl | rfl, -⟩ := accepted
    · simpa [applyTimeoutExpired, applyExecutionTimeout, stopping] using
        Moves.stoppingTimeout generation present stopping
    · exact .cooperativeStopTimeout generation present stopping
  split at accepted
  next finalizing =>
    simp only [decideFinalizingTimeout, ite_reject_left, not_not] at accepted
    obtain ⟨rfl, accepted⟩ := accepted
    have latched : s.latchedReason = none ∧ s.completionCandidate = true ∨ s.latchedReason = some .failed ∨
        s.latchedReason = some .cancelled ∨ s.latchedReason = some .terminated ∨
        s.latchedReason = some .timedOut := by
      split at accepted
      next candidate => exact .inl (by simpa using candidate)
      next => exact .inr (by simpa [or_assoc] using And.left (ite_reject_right.1 accepted))
    simpa [applyTimeoutExpired, applyExecutionTimeout, finalizing] using
      Moves.finalizingTimeout generation present finalizing latched
  next =>
    simp only [rejectState, ite_reject_left, Bool.not_eq_true', Bool.not_eq_false, not_not, Bool.not_eq_true]
      at accepted
    obtain ⟨terminal, rfl, unconfirmed, -⟩ := accepted
    exact .exitConfirmationTimeout generation present terminal unconfirmed

theorem workerOutcome_guard {s : Snapshot} {version : UInt32} {job : Uuid} {type : EventType}
    {p : WorkerEventPayload} {proposal : PreEnvelopeProposal} (outcome : type ≠ .lateWorkerEvent)
    (same : proposal.eventType = type)
    (accepted : decideWorkerOutcome s ⟨version, job, type, .workerEvent p⟩ = .ok proposal) :
    (s.state = .running ∨ s.state = .stopping ∨ s.state = .preparing ∧ type = .workerFailed) ∧
      s.workerId = some p.workerId := by
  simp only [decideWorkerOutcome] at accepted
  split at accepted
  next late =>
    -- the proposal of a late outcome is a `lateWorkerEvent`
    simp only [ite_reject_right, accept_eq_ok] at accepted
    rw [← accepted.2] at same
    exact absurd same.symm outcome
  next =>
    simp only [rejectState, ite_reject_left, ite_reject_right] at accepted
    refine ⟨?_, accepted.2.1⟩
    have early := accepted.1
    simp only [Bool.and_eq_true, decide_eq_true_eq, Bool.not_eq_true', Bool.and_eq_false_imp,
      decide_eq_false_iff_not] at early
    by_cases running : s.state = .running
    · exact .inl running
    by_cases stopping : s.state = .stopping
    · exact .inr (.inl stopping)
    · have : ¬(s.state = .preparing → type ≠ .workerFailed) := fun h =>
        early ⟨⟨running, stopping⟩, h⟩
      exact .inr (.inr (by simpa using this))

theorem outcomeAgrees_of_accepted {s : Snapshot} {version : UInt32} {job : Uuid}
    {p : TerminalOutcomePayload} {proposal : PreEnvelopeProposal}
    (accepted : decideTerminalOutcomeCommitted s
      ⟨version, job, .terminalOutcomeCommitted, .terminalOutcome p⟩ = .ok proposal) :
    s.state = .finalizing ∧ s.finalizationStatus ≠ .pending ∧ OutcomeAgrees s p.outcome := by
  obtain ⟨outcome⟩ := p
  simp only [decideTerminalOutcomeCommitted, rejectState, ite_reject_left, ite_reject_right, not_not]
    at accepted
  refine ⟨accepted.1, accepted.2.1, ?_⟩
  have agrees := accepted.2.2.1
  cases outcome <;> simp_all [OutcomeAgrees]

theorem applyTerminateAccepted_early {s : Snapshot}
    (state : s.state = .admitted ∨ s.state = .preparing ∨ s.state = .running) :
    applyTerminateAccepted s =
      if s.state = .admitted || (s.state = .preparing && s.processPresence = .absent) then
        (beginFinalizing { s with
          latchedReason := some .terminated
          completionMode := .processAlreadyExited
          processExitConfirmed := true }, disarmPreparation s)
      else
        ({ s with latchedReason := some .terminated, completionMode := .forced, state := .stopping },
          disarmPreparation s ++ forcedStopEffects) := by
  rw [applyTerminateAccepted, if_neg (by rcases state with h | h | h <;> simp [h])]

theorem applyTerminateAccepted_late {s : Snapshot} (state : s.state = .stopping ∨ s.state = .finalizing) :
    applyTerminateAccepted s = ({ s with completionMode := .forced }, forcedStopEffects) := by
  rw [applyTerminateAccepted, if_pos (by rcases state with h | h <;> simp [h])]

theorem moves_of_decideByType {s : Snapshot} {version : UInt32} {job : Uuid} {type : EventType}
    {payload : EventPayload} {proposal : PreEnvelopeProposal} {u : Update}
    (present : s.entityExists = true) (agrees : payloadMatches type payload = true)
    (accepted : decideByType s ⟨version, job, type, payload⟩ = .ok proposal)
    (same : proposal.eventType = type)
    (applied : applyAuthorizedEvent s type payload = some u) : Moves s type payload u := by
  cases type <;> cases payload <;> cases agrees <;> cases applied
  case jobCreated.jobCreated => simp [decideByType] at accepted
  case resourcesCommitted.resourcesCommitted p =>
      simp [decideByType, decideResourcesCommitted, rejectState] at accepted
      exact .resourcesCommitted p present accepted.1
  case workerLaunchIntent.workerLaunchIntent p =>
      simp [decideByType, decideWorkerLaunchIntent, rejectState] at accepted
      obtain ⟨state, ⟨⟨status, id⟩, digest⟩, -⟩ := accepted
      exact .workerLaunchIntent p present state status id digest
  case workerLaunchObserved.workerLaunchObserved p =>
      simp [decideByType, decideWorkerLaunchObserved, rejectState] at accepted
      obtain ⟨state, ⟨operation, status⟩, -⟩ := accepted
      exact .workerLaunchObserved p present state operation status
  case workerRunning.workerRunning p =>
      simp [decideByType, decideWorkerRunning, rejectState] at accepted
      obtain ⟨state, ⟨status, worker⟩, -⟩ := accepted
      exact .workerRunning p present state status worker
  case cancelAccepted.principal p =>
      simp [decideByType, decideCancelAccepted, rejectState, or_assoc] at accepted
      exact .cancelAccepted p present accepted.2.2.1
  case terminateAccepted.principal p =>
      simp only [decideByType, decideTerminateAccepted] at accepted
      split at accepted
      next later =>
        simp only [ite_reject_right] at accepted
        exact .terminateEscalated p present (by simpa using later) (by simpa using accepted.1)
      next =>
        simp [rejectState, or_assoc] at accepted
        exact .terminateAccepted p present accepted.2.1
  case timeoutExpired.timeoutExpired p => exact moves_of_timeoutExpired present accepted
  case workerCompleted.workerEvent p =>
      obtain ⟨state, worker⟩ := workerOutcome_guard (by simp) same accepted
      exact .workerCompleted p present (by simpa using state) worker
  case workerFailed.workerEvent p =>
      obtain ⟨state, worker⟩ := workerOutcome_guard (by simp) same accepted
      refine .workerFailed p present ?_ worker
      rcases state with running | stopping | preparing
      · exact .inr (.inl running)
      · exact .inr (.inr stopping)
      · exact .inl preparing.1
  case processExitConfirmed.processExitConfirmed p =>
      simp [decideByType, decideProcessExitConfirmed, rejectState] at accepted
      obtain ⟨state, operation, mode, -⟩ := accepted
      exact .processExitConfirmed p present state operation mode
  case sessionRetainRequested.session p =>
      simp [decideByType, decideSessionRetain, rejectState] at accepted
      obtain ⟨state, ⟨status, session⟩, -⟩ := accepted
      exact .sessionRetainRequested p present state status session
  case sessionRetained.session p =>
      simp [decideByType, decideSessionRetain, rejectState] at accepted
      obtain ⟨state, ⟨status, session⟩, -⟩ := accepted
      exact .sessionRetained p present state status session
  case finalizationCompleted.empty =>
      simp [decideByType, decideFinalizationCompleted, rejectState] at accepted
      exact .finalizationCompleted present accepted.1 accepted.2.1 accepted.2.2.1
  case finalizationFailed.empty =>
      simp [decideByType, decideFinalizationFailed, rejectState] at accepted
      obtain ⟨state, ⟨status, latched⟩, -⟩ := accepted
      exact .finalizationFailed present state status (or_iff_not_imp_left.2 fun h => latched (not_not.1 h))
  case terminalOutcomeCommitted.terminalOutcome p =>
      obtain ⟨state, status, outcome⟩ := outcomeAgrees_of_accepted accepted
      exact .terminalOutcomeCommitted p present state status outcome
  case resourcesReleased.resourcesReleased p =>
      simp [decideByType, decideResourcesReleased, rejectState] at accepted
      obtain ⟨state, confirmed, ⟨id, digest⟩, status, -⟩ := accepted
      exact .resourcesReleased p present state confirmed id digest status
  case cleanupStatusRecorded.cleanupStatus p =>
      simp [decideByType, decideCleanupStatusRecorded, rejectState] at accepted
      exact .cleanupStatusRecorded p present accepted.1 accepted.2.1
  case lateWorkerEvent.lateWorkerEvent p =>
      simp [decideByType, rejectState] at accepted
      exact .lateWorkerEvent p present accepted.1

structure Transition (lib : Libraries) (s : Snapshot) (proposal : PreEnvelopeProposal) (u : Update) :
    Prop where
  valid : validSnapshot s = true
  version : proposal.schemaVersion = 1
  job : proposal.jobId = s.jobId
  payload : validInternalPayload lib proposal.eventType proposal.payload s.jobId = true
  moves : Moves s proposal.eventType proposal.payload u

theorem payloadMatches_of_valid {lib : Libraries} {type : EventType} {payload : EventPayload} {job : Uuid}
    (valid : validInternalPayload lib type payload job = true) : payloadMatches type payload = true := by
  unfold validInternalPayload at valid
  split at valid
  next => cases valid
  next agrees =>
    simp only [Bool.or_eq_true, not_or, Bool.not_eq_true', Bool.not_eq_false] at agrees
    exact agrees.2

theorem apply_cases (lib : Libraries) (s : Snapshot) (proposal : PreEnvelopeProposal) :
    (apply lib s proposal).rejection.isSome ∧ (apply lib s proposal).snapshot = s ∧
        (apply lib s proposal).effects = [] ∨
      (apply lib s proposal).rejection = none ∧
        Transition lib s proposal ((apply lib s proposal).snapshot, (apply lib s proposal).effects) := by
  unfold apply
  split
  next => exact .inl ⟨rfl, rfl, rfl⟩
  cases decision : decideEvent lib s proposal.event with
  | error rejection => exact .inl ⟨rfl, rfl, rfl⟩
  | ok authorized =>
      dsimp only
      split
      next => exact .inl ⟨rfl, rfl, rfl⟩
      next unchanged =>
        cases applied : applyAuthorizedEvent s proposal.eventType proposal.payload with
        | none => exact .inl ⟨rfl, rfl, rfl⟩
        | some u =>
            obtain ⟨valid, version, job, -, payload, decided⟩ := decideEvent_eq_ok_iff.1 decision
            have type : authorized.eventType = proposal.eventType := by
              by_contra different
              exact unchanged (by simp [different])
            refine .inr ⟨rfl, valid, version, job, job ▸ payload, ?_⟩
            rcases decided with ⟨created, absent, -⟩ | ⟨-, present, decided⟩
            · have agrees := payloadMatches_of_valid payload
              obtain ⟨v, j, t, body⟩ := proposal
              cases created
              cases body <;> cases agrees
              cases applied
              exact .jobCreated _ absent
            · exact moves_of_decideByType present (payloadMatches_of_valid payload) decided type applied

theorem Moves.late {s : Snapshot} {payload : EventPayload} {u : Update} (moves : Moves s .lateWorkerEvent payload u) :
    s.entityExists = true ∧ (s.state.isTerminal = true ∨ s.state = .finalizing) := by
  cases moves with
  | lateWorkerEvent p present state => exact ⟨present, state⟩

theorem Transition.of_apply {lib : Libraries} {s : Snapshot} {proposal : PreEnvelopeProposal}
    (applied : (apply lib s proposal).rejection = none) :
    Transition lib s proposal ((apply lib s proposal).snapshot, (apply lib s proposal).effects) := by
  rcases apply_cases lib s proposal with ⟨rejected, -, -⟩ | ⟨-, transition⟩
  · simp [applied] at rejected
  · exact transition

theorem validSnapshot_identity {s : Snapshot} (valid : validSnapshot s = true) :
    isUuid7 s.jobId = true ∧ s.jobId = s.sessionId := by
  simp only [validSnapshot, hasValidSnapshotIdentity, Bool.and_eq_true, decide_eq_true_eq] at valid
  obtain ⟨⟨⟨-, canonical⟩, -⟩, same⟩ := valid.1.1.1.1.1.1.1
  exact ⟨canonical, same⟩

theorem jobCreated_session {lib : Libraries} {payload : EventPayload} {job : Uuid}
    (valid : validInternalPayload lib .jobCreated payload job = true) : payload = .jobCreated ⟨job⟩ := by
  have agrees := payloadMatches_of_valid valid
  cases payload <;> cases agrees
  rename_i p
  simp [validInternalPayload, payloadMatches] at valid
  exact congrArg EventPayload.jobCreated (congrArg JobCreatedPayload.mk valid.2)

structure Late (s : Snapshot) (type : EventType) (p : WorkerEventPayload) : Prop where
  outcome : type = .workerCompleted ∨ type = .workerFailed
  state : s.state.isTerminal = true ∨ s.state = .finalizing
  worker : s.workerId = some p.workerId

theorem timeoutExpired_proposes {s : Snapshot} {version : UInt32} {job : Uuid} {p : TimeoutExpiredPayload}
    {proposal : PreEnvelopeProposal}
    (accepted : decideTimeoutExpired s ⟨version, job, .timeoutExpired, .timeoutExpired p⟩ = .ok proposal) :
    proposal = ⟨1, s.jobId, .timeoutExpired, .timeoutExpired p⟩ := by
  simp only [decideTimeoutExpired, decideFinalizingTimeout, rejectState, acceptEvent] at accepted
  repeat' split at accepted
  all_goals first | exact (accept_eq_ok.1 accepted).symm | exact absurd accepted reject_ne_ok

theorem workerOutcome_proposes {s : Snapshot} {version : UInt32} {job : Uuid} {type : EventType}
    {p : WorkerEventPayload} {proposal : PreEnvelopeProposal}
    (outcome : type = .workerCompleted ∨ type = .workerFailed)
    (accepted : decideWorkerOutcome s ⟨version, job, type, .workerEvent p⟩ = .ok proposal) :
    proposal = ⟨1, s.jobId, type, .workerEvent p⟩ ∨
      Late s type p ∧ proposal = ⟨1, s.jobId, .lateWorkerEvent,
        .lateWorkerEvent ⟨type, p.workerId, p.eventSequence⟩⟩ := by
  simp only [decideWorkerOutcome, rejectState, acceptEvent] at accepted
  split at accepted
  next late =>
    simp only [ite_reject_right, accept_eq_ok] at accepted
    exact .inr ⟨⟨outcome, by simpa using late, accepted.1⟩, accepted.2.symm⟩
  next =>
    simp only [ite_reject_left, ite_reject_right, accept_eq_ok] at accepted
    exact .inl accepted.2.2.symm

theorem decideByType_proposes {s : Snapshot} {version : UInt32} {job : Uuid} {type : EventType}
    {payload : EventPayload} {proposal : PreEnvelopeProposal} (agrees : payloadMatches type payload = true)
    (accepted : decideByType s ⟨version, job, type, payload⟩ = .ok proposal) :
    proposal = ⟨1, s.jobId, type, payload⟩ ∨
      ∃ p, payload = .workerEvent p ∧ Late s type p ∧ proposal = ⟨1, s.jobId, .lateWorkerEvent,
        .lateWorkerEvent ⟨type, p.workerId, p.eventSequence⟩⟩ := by
  cases type <;> cases payload <;> cases agrees
  case timeoutExpired.timeoutExpired p => exact .inl (timeoutExpired_proposes accepted)
  case workerCompleted.workerEvent p | workerFailed.workerEvent p =>
    rcases workerOutcome_proposes (by simp) accepted with same | late
    · exact .inl same
    · exact .inr ⟨p, rfl, late⟩
  case jobCreated.jobCreated => simp [decideByType] at accepted
  case terminateAccepted.principal p =>
    simp only [decideByType, decideTerminateAccepted, rejectState, acceptEvent] at accepted
    split at accepted <;> simp only [ite_reject_left, ite_reject_right, accept_eq_ok] at accepted
    · exact .inl accepted.2.symm
    · exact .inl accepted.2.2.symm
  all_goals
    left
    simp only [decideByType, decideResourcesCommitted, decideWorkerLaunchIntent, decideWorkerLaunchObserved,
      decideWorkerRunning, decideCancelAccepted, decideProcessExitConfirmed, decideSessionRetain,
      decideFinalizationCompleted, decideFinalizationFailed, decideTerminalOutcomeCommitted,
      decideResourcesReleased, decideCleanupStatusRecorded, rejectState, acceptEvent, ite_reject_left,
      ite_reject_right, accept_eq_ok] at accepted
    simp [accepted]

theorem decideEvent_proposes {lib : Libraries} {s : Snapshot} {event : InternalEvent}
    {proposal : PreEnvelopeProposal} (accepted : decideEvent lib s event = .ok proposal) :
    decideEvent lib s proposal.event = .ok proposal := by
  obtain ⟨valid, version, job, canonical, payload, decided⟩ := decideEvent_eq_ok_iff.1 accepted
  have same (itself : proposal = ⟨1, s.jobId, event.eventType, event.payload⟩) :
      decideEvent lib s proposal.event = .ok proposal := by
    have : proposal.event = event := by
      obtain ⟨v, j, type, body⟩ := event
      cases itself
      cases version
      cases job
      rfl
    rw [this, accepted]
  rcases decided with ⟨-, -, created⟩ | ⟨-, present, decided⟩
  · exact same (accept_eq_ok.1 created).symm
  · rcases decideByType_proposes (payloadMatches_of_valid payload) decided with
      itself | ⟨p, body, late, normalized⟩
    · exact same itself
    · subst normalized
      have payload' : validInternalPayload lib .lateWorkerEvent
          (.lateWorkerEvent ⟨event.eventType, p.workerId, p.eventSequence⟩) s.jobId = true := by
        rw [body] at payload
        rcases late.outcome with type | type <;>
          simpa [validInternalPayload, payloadMatches, type] using payload
      refine decideEvent_eq_ok_iff.2 ⟨valid, rfl, rfl, job ▸ canonical, payload', .inr ⟨nofun, present, ?_⟩⟩
      exact if_pos (by simpa using late.state)

theorem decideCommand_cases {s : Snapshot} {c : Command} {proposal : PreEnvelopeProposal}
    (accepted : decideCommand s c = .ok proposal) :
    validSnapshot s = true ∧ c.schemaVersion = 1 ∧ isUuid7 c.jobId = true ∧
      isPrincipal c.principalSubject = true ∧ c.jobId = s.jobId ∧ s.entityExists = true ∧
      (c.commandType = .cancel ∧
          proposal = ⟨1, s.jobId, .cancelAccepted, .principal ⟨c.principalSubject⟩⟩ ∧
          (s.state = .admitted ∨ s.state = .preparing ∨ s.state = .running) ∨
        c.commandType = .terminate ∧
          proposal = ⟨1, s.jobId, .terminateAccepted, .principal ⟨c.principalSubject⟩⟩ ∧
          (s.state = .admitted ∨ s.state = .preparing ∨ s.state = .running ∨
            (s.state = .stopping ∨ s.state = .finalizing) ∧ s.processExitConfirmed = false)) := by
  cases kind : c.commandType <;> simp [decideCommand, kind] at accepted
  case cancel =>
    obtain ⟨valid, ⟨⟨version, canonical⟩, principal⟩, ⟨job, present⟩, -, state, rfl⟩ := accepted
    refine ⟨valid, version, canonical, principal, job, present, .inl ⟨rfl, rfl, ?_⟩⟩
    simpa only [or_iff_not_imp_left] using state
  case terminate =>
    obtain ⟨valid, ⟨⟨version, canonical⟩, principal⟩, ⟨job, present⟩, exit, state, rfl⟩ := accepted
    refine ⟨valid, version, canonical, principal, job, present, .inr ⟨rfl, rfl, ?_⟩⟩
    simp only [or_iff_not_imp_left] at state exit ⊢
    exact fun h₁ h₂ h₃ => ⟨state h₁ h₂ h₃, exit (state h₁ h₂ h₃)⟩

theorem decideCommand_proposes {lib : Libraries} {s : Snapshot} {c : Command} {proposal : PreEnvelopeProposal}
    (accepted : decideCommand s c = .ok proposal) : decideEvent lib s proposal.event = .ok proposal := by
  obtain ⟨valid, -, canonical, principal, job, present, ⟨-, rfl, state⟩ | ⟨-, rfl, state⟩⟩ :=
    decideCommand_cases accepted <;>
  refine decideEvent_eq_ok_iff.2 ⟨valid, rfl, rfl, job ▸ canonical, principal, .inr ⟨nofun, present, ?_⟩⟩
  · rcases state with state | state | state <;>
      simp [PreEnvelopeProposal.event, decideByType, decideCancelAccepted, acceptEvent, state,
        JobState.isTerminal]
  · rcases state with state | state | state | ⟨state | state, exit⟩ <;>
      simp [PreEnvelopeProposal.event, decideByType, decideTerminateAccepted, acceptEvent,
        JobState.isTerminal, *]

theorem apply_of_authorized {lib : Libraries} {s : Snapshot} {proposal : PreEnvelopeProposal} {u : Update}
    (decided : decideEvent lib s proposal.event = .ok proposal)
    (applied : applyAuthorizedEvent s proposal.eventType proposal.payload = some u) :
    apply lib s proposal = ⟨u.1, u.2, none⟩ := by
  obtain ⟨valid, -⟩ := decideEvent_eq_ok_iff.1 decided
  simp [apply, valid, decided, applied]

theorem apply_of_decided {lib : Libraries} {s : Snapshot} {proposal : PreEnvelopeProposal}
    (decided : decideEvent lib s proposal.event = .ok proposal) : (apply lib s proposal).rejection = none := by
  obtain ⟨-, -, -, -, payload, -⟩ := decideEvent_eq_ok_iff.1 decided
  have agrees := payloadMatches_of_valid payload
  obtain ⟨u, applied⟩ : ∃ u, applyAuthorizedEvent s proposal.eventType proposal.payload = some u := by
    obtain ⟨version, job, type, body⟩ := proposal
    cases type <;> cases body <;> cases agrees <;> exact ⟨_, rfl⟩
  rw [apply_of_authorized decided applied]

theorem Moves.identity {s : Snapshot} {type : EventType} {payload : EventPayload} {u : Update}
    (moves : Moves s type payload u) : u.1.entityExists = true ∧ u.1.jobId = s.jobId := by
  cases moves
  case jobCreated => exact ⟨rfl, rfl⟩
  all_goals have present : s.entityExists = true := ‹s.entityExists = true›
  case workerLaunchObserved => rw [applyWorkerLaunchObserved]; split <;> exact ⟨present, rfl⟩
  case cancelAccepted => rw [applyCancelAccepted]; split <;> exact ⟨present, rfl⟩
  case terminateAccepted | terminateEscalated =>
    rw [applyTerminateAccepted]
    split
    · exact ⟨present, rfl⟩
    · split <;> exact ⟨present, rfl⟩
  case preparationTimeout => rw [applyPreparationTimeout]; split <;> exact ⟨present, rfl⟩
  case finalizingTimeout =>
    simp only [applyFinalizingExecutionTimeout]
    repeat' split
    all_goals exact ⟨present, rfl⟩
  case workerCompleted => simp only [applyWorkerCompleted]; split <;> exact ⟨present, rfl⟩
  case workerFailed => simp only [applyWorkerFailed]; split <;> exact ⟨present, rfl⟩
  case processExitConfirmed =>
    rw [applyProcessExitConfirmed]
    repeat' split
    all_goals exact ⟨present, rfl⟩
  case finalizationFailed => simp only [applyFinalizationFailed]; split <;> exact ⟨present, rfl⟩
  all_goals exact ⟨present, rfl⟩

end Sitometron.Core
