import Sitometron.Proof.Core.Contract.Agreement

/-!
# The event rows

One lemma for each event kind: in every state the row and the decision give the same answer.
-/

namespace Sitometron.Core.Contract

variable {lib : Libraries} {s : Snapshot} {version : UInt32} {job : Uuid}

theorem notAllowed_agrees {event : InternalEvent} (given : Presented lib s event)
    (present : s.entityExists = true) (notCreated : event.eventType ≠ .jobCreated)
    (decided : decideByType s event = rejectState) : RowAgrees lib s event notAllowed :=
  .refused (given.agrees_reject present notCreated decided)

theorem resourcesCommitted_agrees {p : ResourcesCommittedPayload}
    (given : Presented lib s ⟨version, job, .resourcesCommitted, .resourcesCommitted p⟩)
    (present : s.entityExists = true) :
    RowAgrees lib s ⟨version, job, .resourcesCommitted, .resourcesCommitted p⟩ (resourcesCommittedRow s.state) := by
  by_cases admitted : s.state = .admitted
  · rw [admitted]
    refine .last (given.agrees_accept present nofun (if_pos admitted) rfl ?_ rfl) rfl
    funext field
    cases field <;> first | rfl | exact congrArg Value.flag present
  · have row : resourcesCommittedRow s.state = notAllowed := by
      cases state : s.state <;> first | rfl | exact absurd state admitted
    exact row ▸ notAllowed_agrees given present nofun (if_neg admitted)

theorem workerLaunchIntent_agrees {p : WorkerLaunchIntentPayload}
    (given : Presented lib s ⟨version, job, .workerLaunchIntent, .workerLaunchIntent p⟩)
    (present : s.entityExists = true) :
    RowAgrees lib s ⟨version, job, .workerLaunchIntent, .workerLaunchIntent p⟩ (workerLaunchIntentRow s.state) := by
  by_cases preparing : s.state = .preparing
  · rw [preparing]
    refine .guarded given present nofun ?_ rfl rfl rfl (fun _ => ?_) rfl
    · simp [decideByType, decideWorkerLaunchIntent, acceptEvent, preparing, and_assoc]
    · funext field
      cases field <;> rfl
  · have row : workerLaunchIntentRow s.state = notAllowed := by
      cases state : s.state <;> first | rfl | exact absurd state preparing
    exact row ▸ notAllowed_agrees given present nofun (if_pos preparing)

theorem workerLaunchObserved_agrees {p : WorkerLaunchObservedPayload}
    (given : Presented lib s ⟨version, job, .workerLaunchObserved, .workerLaunchObserved p⟩)
    (present : s.entityExists = true) :
    RowAgrees lib s ⟨version, job, .workerLaunchObserved, .workerLaunchObserved p⟩
      (workerLaunchObservedRow s.state) := by
  by_cases preparing : s.state = .preparing
  · rw [preparing]
    refine .cons (fun guards => ?_) fun started => .cons (fun guards => ?_) fun failed => .refused ?_
    · simp at guards
      refine given.agrees_accept present nofun ?_ (congrArg some (if_pos guards.2.1)) ?_ rfl
      · simp [decideByType, decideWorkerLaunchObserved, preparing, guards]
      · funext field
        cases field <;> rfl
    · simp at guards
      refine given.agrees_accept present nofun ?_ (congrArg some (if_neg (by simp [guards]))) ?_ rfl
      · simp [decideByType, decideWorkerLaunchObserved, preparing, guards]
      · funext field
        cases field <;> first | rfl | exact congrArg Value.flag present
    · simp at started failed
      refine given.agrees_reject present nofun ?_
      cases outcome : p.started <;>
        simp +contextual [decideByType, decideWorkerLaunchObserved, preparing, outcome] at started failed ⊢
      · intro operation recorded
        exact absurd operation (failed recorded)
      · intro operation recorded
        exact absurd operation (started recorded)
  · have row : workerLaunchObservedRow s.state = notAllowed := by
      cases state : s.state <;> first | rfl | exact absurd state preparing
    exact row ▸ notAllowed_agrees given present nofun (if_pos preparing)

theorem workerRunning_agrees {p : WorkerRunningPayload}
    (given : Presented lib s ⟨version, job, .workerRunning, .workerRunning p⟩)
    (present : s.entityExists = true) :
    RowAgrees lib s ⟨version, job, .workerRunning, .workerRunning p⟩ (workerRunningRow s.state) := by
  by_cases preparing : s.state = .preparing
  · rw [preparing]
    refine .guarded given present nofun ?_ rfl rfl rfl (fun guards => ?_) rfl
    · simp [decideByType, decideWorkerRunning, acceptEvent, preparing]
    · -- The row writes the worker the guard compared, so the field keeps its value.
      simp at guards
      funext field
      cases field <;> first | rfl | exact congrArg Value.flag present | exact (optional_uuid.2 guards.2).symm
  · have row : workerRunningRow s.state = notAllowed := by
      cases state : s.state <;> first | rfl | exact absurd state preparing
    exact row ▸ notAllowed_agrees given present nofun (if_pos preparing)

theorem cancelAccepted_agrees {payload : EventPayload}
    (given : Presented lib s ⟨version, job, .cancelAccepted, payload⟩) (present : s.entityExists = true) :
    RowAgrees lib s ⟨version, job, .cancelAccepted, payload⟩ (cancelAcceptedRow s.state) := by
  have accepts (early : s.state = .admitted ∨ s.state = .preparing ∨ s.state = .running) :
      decideByType s ⟨version, job, .cancelAccepted, payload⟩ = accept s .cancelAccepted payload := by
    rcases early with state | state | state <;>
      simp [decideByType, decideCancelAccepted, acceptEvent, state, JobState.isTerminal]
  cases state : s.state
  case admitted =>
    refine .last (given.agrees_accept present (by simp) (accepts (by simp [state]))
      (congrArg some (if_pos (by simp [state]))) ?_ (by simp [disarmPreparation, state])) rfl
    funext field
    cases field <;> first | rfl | exact congrArg Value.flag present
  case preparing =>
    refine .cons (fun absent => ?_) fun unknown => .last ?_ rfl
    · simp at absent
      refine given.agrees_accept present (by simp) (accepts (by simp [state]))
        (congrArg some (if_pos (by simp [state, absent]))) ?_ (by simp [disarmPreparation, state])
      funext field
      cases field <;> first | rfl | exact congrArg Value.flag present
    · simp at unknown
      refine given.agrees_accept present (by simp) (accepts (by simp [state]))
        (congrArg some (if_neg (by simp [state, unknown]))) ?_ (by simp [disarmPreparation, state])
      funext field
      cases field <;> first | rfl | exact congrArg Value.flag present
  case running =>
    refine .last (given.agrees_accept present (by simp) (accepts (by simp [state]))
      (congrArg some (if_neg (by simp [state]))) ?_ (by simp [disarmPreparation, state])) rfl
    funext field
    cases field <;> first | rfl | exact congrArg Value.flag present
  case invalid => exact absurd state given.closedState
  all_goals
    refine .refused (given.agrees_reject present (by simp) ?_)
    simp [decideByType, decideCancelAccepted, state, JobState.isTerminal]

theorem terminateAccepted_agrees {payload : EventPayload}
    (given : Presented lib s ⟨version, job, .terminateAccepted, payload⟩) (present : s.entityExists = true) :
    RowAgrees lib s ⟨version, job, .terminateAccepted, payload⟩ (terminateAcceptedRow s.state) := by
  have accepts (early : s.state = .admitted ∨ s.state = .preparing ∨ s.state = .running) :
      decideByType s ⟨version, job, .terminateAccepted, payload⟩ = accept s .terminateAccepted payload := by
    rcases early with state | state | state <;>
      simp [decideByType, decideTerminateAccepted, acceptEvent, state, JobState.isTerminal]
  have early {u : Update} (starting : s.state ≠ .stopping ∧ s.state ≠ .finalizing)
      (next : (if s.state = .admitted || (s.state = .preparing && s.processPresence = .absent) then
        (beginFinalizing { s with
          latchedReason := some .terminated
          completionMode := .processAlreadyExited
          processExitConfirmed := true }, disarmPreparation s)
      else
        ({ s with latchedReason := some .terminated, completionMode := .forced, state := .stopping },
          disarmPreparation s ++ forcedStopEffects)) = u) :
      applyAuthorizedEvent s .terminateAccepted payload = some u :=
    congrArg some ((if_neg (by simp [starting])).trans next)
  have escalates (stopping : s.state = .stopping ∨ s.state = .finalizing) :
      RowAgrees lib s ⟨version, job, .terminateAccepted, payload⟩ (terminateAcceptedRow .stopping) := by
    refine .guarded given present (by simp) ?_ rfl rfl (congrArg some (if_pos (by simpa using stopping)))
      (fun _ => ?_) rfl
    · rcases stopping with state | state <;>
        simp [decideByType, decideTerminateAccepted, acceptEvent, state]
    · funext field
      cases field <;> rfl
  cases state : s.state
  case admitted =>
    refine .last (given.agrees_accept present (by simp) (accepts (by simp [state]))
      (early (by simp [state]) (if_pos (by simp [state]))) ?_ (by simp [disarmPreparation, state])) rfl
    funext field
    cases field <;> first | rfl | exact congrArg Value.flag present
  case preparing =>
    refine .cons (fun absent => ?_) fun unknown => .last ?_ rfl
    · simp at absent
      refine given.agrees_accept present (by simp) (accepts (by simp [state]))
        (early (by simp [state]) (if_pos (by simp [state, absent]))) ?_ (by simp [disarmPreparation, state])
      funext field
      cases field <;> first | rfl | exact congrArg Value.flag present
    · simp at unknown
      refine given.agrees_accept present (by simp) (accepts (by simp [state]))
        (early (by simp [state]) (if_neg (by simp [state, unknown]))) ?_
        (by simp [disarmPreparation, forcedStopEffects, state])
      funext field
      cases field <;> first | rfl | exact congrArg Value.flag present
  case running =>
    refine .last (given.agrees_accept present (by simp) (accepts (by simp [state]))
      (early (by simp [state]) (if_neg (by simp [state]))) ?_
      (by simp [disarmPreparation, forcedStopEffects, state])) rfl
    funext field
    cases field <;> first | rfl | exact congrArg Value.flag present
  case stopping => exact escalates (.inl state)
  case finalizing => exact escalates (.inr state)
  case invalid => exact absurd state given.closedState
  all_goals
    refine .refused (given.agrees_reject present (by simp) ?_)
    simp [decideByType, decideTerminateAccepted, state, JobState.isTerminal]

section Timeout

variable {p : TimeoutExpiredPayload} (given : Presented lib s ⟨version, job, .timeoutExpired, .timeoutExpired p⟩)
  (present : s.entityExists = true)

include given present

theorem preparingTimeout_agrees (preparing : s.state = .preparing) :
    RowAgrees lib s ⟨version, job, .timeoutExpired, .timeoutExpired p⟩ (timeoutExpiredRow .preparing) := by
  have accepts (phase : p.phase = .preparation) :
      decideByType s ⟨version, job, .timeoutExpired, .timeoutExpired p⟩ =
        accept s .timeoutExpired (.timeoutExpired p) := by
    simp [decideByType, decideTimeoutExpired, acceptEvent, preparing, phase]
  have applied (phase : p.phase = .preparation) :
      applyTimeoutExpired s p = applyPreparationTimeout s := by simp [applyTimeoutExpired, phase]
  refine .cons (fun absent => ?_) fun unknown => .cons (fun phase => ?_) fun other => .refused ?_
  · simp at absent
    refine given.agrees_accept present (by simp) (accepts absent.1)
      (congrArg some ((applied absent.1).trans (if_pos absent.2))) ?_ rfl
    funext field
    cases field <;> first | rfl | exact congrArg Value.flag present
  · simp at unknown phase
    refine given.agrees_accept present (by simp) (accepts phase)
      (congrArg some ((applied phase).trans (if_neg (unknown phase)))) ?_ rfl
    funext field
    cases field <;> first | rfl | exact congrArg Value.flag present
  · simp at other
    exact given.agrees_reject present (by simp) (by simp [decideByType, decideTimeoutExpired, preparing, other])

theorem runningTimeout_agrees (running : s.state = .running) :
    RowAgrees lib s ⟨version, job, .timeoutExpired, .timeoutExpired p⟩ (timeoutExpiredRow .running) := by
  refine .cons (fun phase => ?_) fun other => .refused ?_
  · simp at phase
    have applied : applyTimeoutExpired s p = applyRunningExecutionTimeout s := by
      simp [applyTimeoutExpired, applyExecutionTimeout, phase, running]
    refine given.agrees_accept present (by simp) ?_ (congrArg some applied) ?_ rfl
    · simp [decideByType, decideTimeoutExpired, running, phase]
    · funext field
      cases field <;> first | rfl | exact congrArg Value.flag present
  · simp at other
    exact given.agrees_reject present (by simp) (by simp [decideByType, decideTimeoutExpired, running, other])

theorem stoppingTimeout_agrees (stopping : s.state = .stopping) :
    RowAgrees lib s ⟨version, job, .timeoutExpired, .timeoutExpired p⟩ (timeoutExpiredRow .stopping) := by
  refine .cons (fun phase => ?_) fun other => .cons (fun phase => ?_) fun neither => .refused ?_
  · simp at phase
    have applied : applyTimeoutExpired s p = applyCooperativeStopTimeout s := by
      simp [applyTimeoutExpired, phase]
    refine given.agrees_accept present (by simp) ?_ (congrArg some applied) ?_ rfl
    · simp [decideByType, decideTimeoutExpired, stopping, phase]
    · funext field
      cases field <;> rfl
  · simp at phase
    have applied : applyTimeoutExpired s p = applyStoppingExecutionTimeout s := by
      simp [applyTimeoutExpired, applyExecutionTimeout, phase, stopping]
    refine given.agrees_accept present (by simp) ?_ (congrArg some applied) ?_ rfl
    · simp [decideByType, decideTimeoutExpired, stopping, phase]
    · funext field
      cases field <;> rfl
  · simp at other neither
    exact given.agrees_reject present (by simp)
      (by simp [decideByType, decideTimeoutExpired, stopping, other, neither])

theorem finalizingTimeout_agrees (finalizing : s.state = .finalizing) :
    RowAgrees lib s ⟨version, job, .timeoutExpired, .timeoutExpired p⟩ (timeoutExpiredRow .finalizing) := by
  have applied (phase : p.phase = .execution) :
      applyTimeoutExpired s p = applyFinalizingExecutionTimeout s := by
    simp [applyTimeoutExpired, applyExecutionTimeout, phase, finalizing]
  have accepts (phase : p.phase = .execution)
      (reason : s.latchedReason = none ∧ s.completionCandidate = true ∨ s.latchedReason = some .failed ∨
        s.latchedReason = some .cancelled ∨ s.latchedReason = some .terminated ∨
        s.latchedReason = some .timedOut) :
      decideByType s ⟨version, job, .timeoutExpired, .timeoutExpired p⟩ =
        accept s .timeoutExpired (.timeoutExpired p) := by
    rcases reason with ⟨latched, candidate⟩ | latched | latched | latched | latched <;>
      simp [decideByType, decideTimeoutExpired, decideFinalizingTimeout, acceptEvent, *]
  refine .cons (fun running => ?_) fun h₁ => .cons (fun exited => ?_) fun h₂ =>
    .cons (fun latched => ?_) fun h₃ => .cons (fun latched => ?_) fun h₄ => .refused ?_
  · simp at running
    obtain ⟨phase, latched, candidate, exit⟩ := running
    have next : applyFinalizingExecutionTimeout s = ({ s with
        latchedReason := some .timedOut
        completionCandidate := false
        completionMode := .forced }, forcedStopEffects) := by
      simp [applyFinalizingExecutionTimeout, latched, candidate, exit]
    refine given.agrees_accept present (by simp) (accepts phase (.inl ⟨latched, candidate⟩))
      (congrArg some ((applied phase).trans next)) ?_ rfl
    funext field
    cases field <;> rfl
  · simp at exited
    obtain ⟨phase, latched, candidate, exit⟩ := exited
    have next : applyFinalizingExecutionTimeout s = ({ s with
        latchedReason := some .timedOut
        completionCandidate := false
        completionMode := .processAlreadyExited }, []) := by
      simp [applyFinalizingExecutionTimeout, latched, candidate, exit]
    refine given.agrees_accept present (by simp) (accepts phase (.inl ⟨latched, candidate⟩))
      (congrArg some ((applied phase).trans next)) ?_ rfl
    funext field
    cases field <;> rfl
  · simp at latched
    obtain ⟨phase, reason, exit⟩ := latched
    have failing : s.latchedReason ≠ none := by rintro none; simp [none] at reason
    have next : applyFinalizingExecutionTimeout s = ({ s with completionMode := .forced }, forcedStopEffects) := by
      simp [applyFinalizingExecutionTimeout, failing, exit]
    refine given.agrees_accept present (by simp) (accepts phase (.inr reason))
      (congrArg some ((applied phase).trans next)) ?_ rfl
    funext field
    cases field <;> rfl
  · simp at latched
    obtain ⟨phase, reason, exit⟩ := latched
    have failing : s.latchedReason ≠ none := by rintro none; simp [none] at reason
    have next : applyFinalizingExecutionTimeout s = (s, []) := by
      simp [applyFinalizingExecutionTimeout, failing, exit]
    refine given.agrees_accept present (by simp) (accepts phase (.inr reason))
      (congrArg some ((applied phase).trans next)) ?_ rfl
    funext field
    cases field <;> rfl
  · refine given.agrees_reject present (by simp) ?_
    simp at h₁ h₂ h₃ h₄
    by_cases phase : p.phase = .execution
    · cases exit : s.processExitConfirmed <;> simp [phase, exit] at h₁ h₂ h₃ h₄ <;>
        simp +contextual [decideByType, decideTimeoutExpired, decideFinalizingTimeout, *]
    · simp [decideByType, decideTimeoutExpired, decideFinalizingTimeout, finalizing, phase]

theorem terminalTimeout_agrees (terminal : s.state.isTerminal = true) :
    RowAgrees lib s ⟨version, job, .timeoutExpired, .timeoutExpired p⟩ (timeoutExpiredRow s.state) := by
  have row : timeoutExpiredRow s.state = timeoutExpiredRow .succeeded := by
    cases state : s.state <;> first | rfl | simp [state, JobState.isTerminal] at terminal
  have decided : decideByType s ⟨version, job, .timeoutExpired, .timeoutExpired p⟩ =
      if p.phase ≠ .processExitConfirmation then reject .timeoutPhaseMismatch
      else if s.processExitConfirmed then reject .invariantViolation
      else accept s .timeoutExpired (.timeoutExpired p) := by
    cases state : s.state <;>
      simp [decideByType, decideTimeoutExpired, acceptEvent, state, JobState.isTerminal] at terminal ⊢
  rw [row]
  refine .cons (fun running => ?_) fun h₁ => .cons (fun exited => ?_) fun h₂ => .refused ?_
  · simp at running
    have applied : applyTimeoutExpired s p = applyProcessExitConfirmationTimeout s := by
      simp [applyTimeoutExpired, running.1]
    refine given.agrees_accept present (by simp) (decided.trans ?_) (congrArg some applied) ?_ rfl
    · simp [running, acceptEvent]
    · funext field
      cases field <;> rfl
  · simp at exited
    exact given.agrees_reject present (by simp) (decided.trans (by simp [exited]))
  · simp at h₁ h₂
    have other : p.phase ≠ .processExitConfirmation := fun phase =>
      absurd (h₁ phase) (by simp [h₂ phase])
    exact given.agrees_reject present (by simp) (decided.trans (if_pos other))

theorem timeoutExpired_agrees :
    RowAgrees lib s ⟨version, job, .timeoutExpired, .timeoutExpired p⟩ (timeoutExpiredRow s.state) := by
  cases state : s.state
  case admitted =>
    exact notAllowed_agrees given present nofun
      (by simp [decideByType, decideTimeoutExpired, state, JobState.isTerminal])
  case preparing => exact preparingTimeout_agrees given present state
  case running => exact runningTimeout_agrees given present state
  case stopping => exact stoppingTimeout_agrees given present state
  case finalizing => exact finalizingTimeout_agrees given present state
  case invalid => exact absurd state given.closedState
  all_goals exact state ▸ terminalTimeout_agrees given present (by rw [state]; rfl)

end Timeout

section WorkerOutcome

variable {type : EventType} {p : WorkerEventPayload}

theorem late_agrees (given : Presented lib s ⟨version, job, type, .workerEvent p⟩)
    (present : s.entityExists = true) (outcome : type = .workerCompleted ∨ type = .workerFailed)
    (late : s.state.isTerminal || s.state = .finalizing) :
    RowAgrees lib s ⟨version, job, type, .workerEvent p⟩ lateRow := by
  have decided : decideByType s ⟨version, job, type, .workerEvent p⟩ =
      if s.workerId = some p.workerId then
        accept s .lateWorkerEvent (.lateWorkerEvent ⟨type, p.workerId, p.eventSequence⟩)
      else reject .invariantViolation := by
    rcases outcome with rfl | rfl <;> exact if_pos late
  have notCreated : type ≠ .jobCreated := by rcases outcome with rfl | rfl <;> simp
  have canonical := given.canonical
  have payload := given.payload
  refine .cons (fun bound => ?_) fun other => .refused ?_
  · simp at bound
    have accepted : decideEvent lib s ⟨version, job, type, .workerEvent p⟩ =
        accept s .lateWorkerEvent (.lateWorkerEvent ⟨type, p.workerId, p.eventSequence⟩) :=
      (given.decide_present present notCreated).trans (decided.trans (if_pos bound))
    have again : Presented lib s ⟨1, s.jobId, .lateWorkerEvent,
        .lateWorkerEvent ⟨type, p.workerId, p.eventSequence⟩⟩ :=
      { valid := given.valid
        version := rfl
        job := rfl
        canonical := given.job ▸ given.canonical
        payload := by
          have payload := given.payload
          rcases outcome with rfl | rfl <;> simpa [validInternalPayload, payloadMatches] using payload }
    have authorized := again.decide_present present (by simp)
    have applied : apply lib s ⟨1, s.jobId, .lateWorkerEvent,
        .lateWorkerEvent ⟨type, p.workerId, p.eventSequence⟩⟩ = ⟨s, [.ackLateWorkerEvent], none⟩ :=
      apply_of_authorized (u := (s, [.ackLateWorkerEvent])) (authorized.trans (if_pos late)) rfl
    exact ⟨accepted, s, spells (funext fun field => by cases field <;> rfl), applied⟩
  · simp at other
    exact given.agrees_reject present notCreated (decided.trans (if_neg other))

theorem workerCompleted_agrees (given : Presented lib s ⟨version, job, .workerCompleted, .workerEvent p⟩)
    (present : s.entityExists = true) :
    RowAgrees lib s ⟨version, job, .workerCompleted, .workerEvent p⟩ (workerCompletedRow s.state) := by
  cases state : s.state
  case admitted | preparing =>
    exact notAllowed_agrees given present nofun
      (by simp [decideByType, decideWorkerOutcome, state, JobState.isTerminal])
  case running =>
    have applied : applyWorkerCompleted s p =
        (addWorkerAck (beginFinalizing { s with completionCandidate := true }) p, []) := by
      simp [applyWorkerCompleted, disarmCooperativeStop, state]
    refine .guarded given present nofun ?_ rfl rfl (congrArg some applied) (fun _ => ?_) rfl
    · simp [decideByType, decideWorkerOutcome, acceptEvent, state, JobState.isTerminal]
    · funext field
      cases field <;> first | rfl | exact congrArg Value.flag present
  case stopping =>
    have applied : applyWorkerCompleted s p =
        (addWorkerAck (beginFinalizing s) p, [.disarmCooperativeStopTimeout]) := by
      simp [applyWorkerCompleted, disarmCooperativeStop, state]
    refine .guarded given present nofun ?_ rfl rfl (congrArg some applied) (fun _ => ?_) rfl
    · simp [decideByType, decideWorkerOutcome, acceptEvent, state, JobState.isTerminal]
    · funext field
      cases field <;> first | rfl | exact congrArg Value.flag present
  case invalid => exact absurd state given.closedState
  all_goals exact late_agrees given present (.inl rfl) (by simp [state, JobState.isTerminal])

theorem workerFailed_agrees (given : Presented lib s ⟨version, job, .workerFailed, .workerEvent p⟩)
    (present : s.entityExists = true) :
    RowAgrees lib s ⟨version, job, .workerFailed, .workerEvent p⟩ (workerFailedRow s.state) := by
  cases state : s.state
  case admitted =>
    exact notAllowed_agrees given present nofun
      (by simp [decideByType, decideWorkerOutcome, state, JobState.isTerminal])
  case preparing =>
    have applied : applyWorkerFailed s p = (addWorkerAck (beginFinalizing
        { s with latchedReason := some .failed }) p, [.disarmPreparationTimeout]) := by
      simp [applyWorkerFailed, disarmPreparation, disarmCooperativeStop, state]
    refine .guarded given present nofun ?_ rfl rfl (congrArg some applied) (fun _ => ?_) rfl
    · simp [decideByType, decideWorkerOutcome, acceptEvent, state, JobState.isTerminal, eq_comm]
    · funext field
      cases field <;> first | rfl | exact congrArg Value.flag present
  case running =>
    have applied : applyWorkerFailed s p = (addWorkerAck (beginFinalizing
        { s with latchedReason := some .failed }) p, []) := by
      simp [applyWorkerFailed, disarmPreparation, disarmCooperativeStop, state]
    refine .guarded given present nofun ?_ rfl rfl (congrArg some applied) (fun _ => ?_) rfl
    · simp [decideByType, decideWorkerOutcome, acceptEvent, state, JobState.isTerminal]
    · funext field
      cases field <;> first | rfl | exact congrArg Value.flag present
  case stopping =>
    have applied : applyWorkerFailed s p =
        (addWorkerAck (beginFinalizing s) p, [.disarmCooperativeStopTimeout]) := by
      simp [applyWorkerFailed, disarmPreparation, disarmCooperativeStop, state]
    refine .guarded given present nofun ?_ rfl rfl (congrArg some applied) (fun _ => ?_) rfl
    · simp [decideByType, decideWorkerOutcome, acceptEvent, state, JobState.isTerminal]
    · funext field
      cases field <;> first | rfl | exact congrArg Value.flag present
  case invalid => exact absurd state given.closedState
  all_goals exact late_agrees given present (.inr rfl) (by simp [state, JobState.isTerminal])

end WorkerOutcome

theorem processExitConfirmed_agrees {p : ProcessExitConfirmedPayload}
    (given : Presented lib s ⟨version, job, .processExitConfirmed, .processExitConfirmed p⟩)
    (present : s.entityExists = true) :
    RowAgrees lib s ⟨version, job, .processExitConfirmed, .processExitConfirmed p⟩
      (processExitConfirmedRow s.state) := by
  have late (state : (s.state = .finalizing || s.state.isTerminal) = true) :
      RowAgrees lib s ⟨version, job, .processExitConfirmed, .processExitConfirmed p⟩
        (processExitConfirmedRow .finalizing) := by
    have admitted : s.state ≠ .admitted := by rintro admitted; simp [admitted, JobState.isTerminal] at state
    have mode : p.completionMode ≠ .none := by
      have payload := given.payload
      simp [validInternalPayload, payloadMatches] at payload
      exact payload.1.2
    refine .cons (fun first => ?_) fun h₁ => .cons (fun again => ?_) fun h₂ => .refused ?_
    · simp at first
      have applied : applyProcessExitConfirmed s p = ({ confirmExit s with completionMode := p.completionMode },
          [.disarmCooperativeStopTimeout, .disarmProcessExitConfirmationTimeout]) := by
        simp [applyProcessExitConfirmed, state, first]
      refine given.agrees_accept present (by simp) ?_ (congrArg some applied) ?_ rfl
      · simp [decideByType, decideProcessExitConfirmed, admitted, first]
      · funext field
        cases field <;> first | rfl | exact if_neg mode
    · simp [mode_eq mode] at again
      have applied : applyProcessExitConfirmed s p = (s, []) := by
        simp [applyProcessExitConfirmed, state, again]
      refine given.agrees_accept present (by simp) ?_ (congrArg some applied) ?_ rfl
      · simp [decideByType, decideProcessExitConfirmed, admitted, again]
      · funext field
        cases field <;> rfl
    · simp [mode_eq mode] at h₁ h₂
      refine given.agrees_reject present (by simp) ?_
      by_cases operation : s.launchOperationId = some p.launchOperationId
      · have exit : s.processExitConfirmed = true := by
          by_contra running
          exact h₁ (by simpa using running) operation
        have differs : s.completionMode ≠ p.completionMode := fun same => h₂ exit same operation
        simp [decideByType, decideProcessExitConfirmed, admitted, operation, state, exit, differs]
      · simp [decideByType, decideProcessExitConfirmed, admitted, operation]
  cases state : s.state
  case admitted => exact notAllowed_agrees given present (by simp) (if_pos state)
  case preparing =>
    have applied : applyProcessExitConfirmed s p = (beginFinalizing { confirmExit s with
        completionMode := .processAlreadyExited
        latchedReason := some .failed }, [.disarmPreparationTimeout]) := by
      simp [applyProcessExitConfirmed, state, JobState.isTerminal]
    refine .guarded given present (by simp) ?_ rfl rfl (congrArg some applied) (fun _ => ?_) rfl
    · simp [decideByType, decideProcessExitConfirmed, acceptEvent, state, JobState.isTerminal]
    · funext field
      cases field <;> first | rfl | exact congrArg Value.flag present
  case running =>
    have applied : applyProcessExitConfirmed s p = (beginFinalizing { confirmExit s with
        completionMode := .processAlreadyExited
        latchedReason := some .failed }, []) := by
      simp [applyProcessExitConfirmed, state, JobState.isTerminal]
    refine .guarded given present (by simp) ?_ rfl rfl (congrArg some applied) (fun _ => ?_) rfl
    · simp [decideByType, decideProcessExitConfirmed, acceptEvent, state, JobState.isTerminal]
    · funext field
      cases field <;> first | rfl | exact congrArg Value.flag present
  case stopping =>
    have applied : applyProcessExitConfirmed s p = (beginFinalizing (confirmExit s),
        [.disarmCooperativeStopTimeout, .disarmProcessExitConfirmationTimeout]) := by
      simp [applyProcessExitConfirmed, state, JobState.isTerminal]
    refine .guarded given present (by simp) ?_ rfl rfl (congrArg some applied) (fun _ => ?_) rfl
    · simp [decideByType, decideProcessExitConfirmed, acceptEvent, state, JobState.isTerminal]
    · funext field
      cases field <;> first | rfl | exact congrArg Value.flag present
  case invalid => exact absurd state given.closedState
  all_goals exact late (by simp [state, JobState.isTerminal])

theorem sessionRow_of_ne {event : EventType} {expected recorded : RetentionStatus} {effects : List EffectId}
    {state : JobState} (h : state ≠ .finalizing) :
    sessionRow event expected recorded effects state = notAllowed := by
  cases state <;> first | rfl | exact absurd rfl h

theorem sessionRetainRequested_agrees {p : SessionPayload}
    (given : Presented lib s ⟨version, job, .sessionRetainRequested, .session p⟩)
    (present : s.entityExists = true) :
    RowAgrees lib s ⟨version, job, .sessionRetainRequested, .session p⟩
      (sessionRow .sessionRetainRequested .notStarted .requested [.retainSessionSameIdentity] s.state) := by
  by_cases finalizing : s.state = .finalizing
  · rw [finalizing]
    refine .guarded given present nofun ?_ rfl rfl rfl (fun _ => ?_) rfl
    · simp [decideByType, decideSessionRetain, acceptEvent, finalizing, Uuid.ext_iff]
    · funext field
      cases field <;> rfl
  · rw [sessionRow_of_ne finalizing]
    exact notAllowed_agrees given present nofun (if_pos finalizing)

theorem sessionRetained_agrees {p : SessionPayload}
    (given : Presented lib s ⟨version, job, .sessionRetained, .session p⟩)
    (present : s.entityExists = true) :
    RowAgrees lib s ⟨version, job, .sessionRetained, .session p⟩
      (sessionRow .sessionRetained .requested .retained [] s.state) := by
  by_cases finalizing : s.state = .finalizing
  · rw [finalizing]
    refine .guarded given present nofun ?_ rfl rfl rfl (fun _ => ?_) rfl
    · simp [decideByType, decideSessionRetain, acceptEvent, finalizing, Uuid.ext_iff]
    · funext field
      cases field <;> rfl
  · rw [sessionRow_of_ne finalizing]
    exact notAllowed_agrees given present nofun (if_pos finalizing)

theorem finalizationCompleted_agrees {payload : EventPayload}
    (given : Presented lib s ⟨version, job, .finalizationCompleted, payload⟩)
    (present : s.entityExists = true) :
    RowAgrees lib s ⟨version, job, .finalizationCompleted, payload⟩ (finalizationCompletedRow s.state) := by
  by_cases finalizing : s.state = .finalizing
  · rw [finalizing]
    refine .cons (fun pending => ?_) fun h₁ => .cons (fun missing => ?_) fun h₂ => .refused ?_
    · simp at pending
      refine given.agrees_accept present nofun ?_ rfl ?_ rfl
      · simp [decideByType, decideFinalizationCompleted, finalizing, pending]
      · funext field
        cases field <;> rfl
    · simp at missing
      exact given.agrees_reject present nofun
        (by simp [decideByType, decideFinalizationCompleted, finalizing, missing])
    · simp at h₁ h₂
      exact given.agrees_reject present nofun
        (by simp [decideByType, decideFinalizationCompleted, finalizing, h₁, h₂])
  · have row : finalizationCompletedRow s.state = notAllowed := by
      cases state : s.state <;> first | rfl | exact absurd state finalizing
    exact row ▸ notAllowed_agrees given present nofun (if_pos finalizing)

theorem finalizationFailed_agrees {payload : EventPayload}
    (given : Presented lib s ⟨version, job, .finalizationFailed, payload⟩)
    (present : s.entityExists = true) :
    RowAgrees lib s ⟨version, job, .finalizationFailed, payload⟩ (finalizationFailedRow s.state) := by
  by_cases finalizing : s.state = .finalizing
  · rw [finalizing]
    refine .cons (fun candidate => ?_) fun h₁ => .cons (fun latched => ?_) fun h₂ => .refused ?_
    · simp at candidate
      have applied : applyFinalizationFailed s = ({ s with
          finalizationStatus := .failed
          cleanupStatus := .incomplete
          latchedReason := some .failed
          completionCandidate := false }, []) := by
        simp [applyFinalizationFailed, candidate]
      refine given.agrees_accept present (by simp) ?_ (congrArg some applied) ?_ rfl
      · simp [decideByType, decideFinalizationFailed, finalizing, candidate]
      · funext field
        cases field <;> rfl
    · simp at latched
      have failing : s.latchedReason ≠ none := by rintro none; simp [none] at latched
      have applied : applyFinalizationFailed s = ({ s with
          finalizationStatus := .failed
          cleanupStatus := .incomplete }, []) := by
        simp [applyFinalizationFailed, failing]
      refine given.agrees_accept present (by simp) ?_ (congrArg some applied) ?_ rfl
      · simp [decideByType, decideFinalizationFailed, finalizing, latched, failing]
      · funext field
        cases field <;> rfl
    · simp at h₁ h₂
      refine given.agrees_reject present (by simp) ?_
      -- A valid snapshot latches no other reason than the four of the second case.
      have closed := (hasValidSnapshotOptionalDomains_iff.1 given.facts.2.1).1
      rcases reason : s.latchedReason with - | ⟨- | - | - | - | - | -⟩ <;> simp [reason] at h₁ h₂ closed <;>
        simp +contextual [decideByType, decideFinalizationFailed, finalizing, reason, h₁, h₂]
  · have row : finalizationFailedRow s.state = notAllowed := by
      cases state : s.state <;> first | rfl | exact absurd state finalizing
    exact row ▸ notAllowed_agrees given present (by simp) (if_pos finalizing)

theorem decideTerminalOutcome_mismatch {p : TerminalOutcomePayload} (finalizing : s.state = .finalizing)
    (settled : s.finalizationStatus ≠ .pending) (disagrees : ¬OutcomeAgrees s p.outcome) :
    decideByType s ⟨version, job, .terminalOutcomeCommitted, .terminalOutcome p⟩ =
      reject .terminalOutcomeMismatch := by
  obtain ⟨outcome⟩ := p
  cases outcome <;> simp only [OutcomeAgrees] at disagrees <;>
    simp [decideByType, decideTerminalOutcomeCommitted, finalizing, settled, and_assoc, disagrees]

section TerminalOutcome

variable {p : TerminalOutcomePayload}
  (given : Presented lib s ⟨version, job, .terminalOutcomeCommitted, .terminalOutcome p⟩)
  (present : s.entityExists = true)

include given present

theorem outcomeCase_agrees (finalizing : s.state = .finalizing)
    (settled : s.finalizationStatus = .completed ∨ s.finalizationStatus = .failed)
    (agrees : OutcomeAgrees s p.outcome) {outcome : TerminalOutcome} {state : JobState}
    (target : jobStateForOutcome p.outcome = state) {guards : List Predicate} :
    Agrees lib s ⟨version, job, .terminalOutcomeCommitted, .terminalOutcome p⟩
      ((outcomeCase outcome state guards).verdict (view s)
        ⟨version, job, .terminalOutcomeCommitted, .terminalOutcome p⟩) := by
  subst target
  have applied : applyTerminalOutcomeCommitted s p = ({ s with state := jobStateForOutcome p.outcome },
      [.disarmExecutionTimeout, .ackTerminalWorkerEventIfPending, .publishTerminalResult,
        .armProcessExitConfirmationTimeoutIfNeeded]) := by
    rcases settled with status | status <;> simp [applyTerminalOutcomeCommitted, status]
  refine given.agrees_accept present nofun ?_ (congrArg some applied) ?_ rfl
  · rcases outcome : p.outcome <;> rcases settled with status | status <;>
      simp_all [OutcomeAgrees, decideByType, decideTerminalOutcomeCommitted]
  · funext field
    cases field <;> first | rfl | exact congrArg Value.flag present

theorem terminalOutcomeCommitted_agrees :
    RowAgrees lib s ⟨version, job, .terminalOutcomeCommitted, .terminalOutcome p⟩
      (terminalOutcomeCommittedRow s.state) := by
  by_cases finalizing : s.state = .finalizing
  · rw [finalizing]
    refine .cons (fun pending => ?_) fun settled => ?_
    · simp at pending
      exact given.agrees_reject present nofun
        (by simp [decideByType, decideTerminalOutcomeCommitted, finalizing, pending])
    simp at settled
    have settles : s.finalizationStatus = .completed ∨ s.finalizationStatus = .failed := by
      have started := (hasValidStateFacts_iff.1 given.facts.2.2.2).2.2.1 finalizing
      have closed := (hasValidSnapshotEnums_iff.1 given.facts.1).2.2.2.2.2.2.1
      cases status : s.finalizationStatus <;> simp_all
    refine .cons (fun g => ?_) fun h₁ => .cons (fun g => ?_) fun h₂ => .cons (fun g => ?_) fun h₃ =>
      .cons (fun g => ?_) fun h₄ => .cons (fun g => ?_) fun h₅ => .refused ?_
    iterate 5
      · simp [outcomeCase, latchedOutcomeCase] at g
        exact outcomeCase_agrees given present finalizing settles (by simp [g, OutcomeAgrees])
          (by simp [g, jobStateForOutcome])
    · simp [outcomeCase, latchedOutcomeCase, settles] at h₁ h₂ h₃ h₄ h₅
      refine given.agrees_reject present nofun (decideTerminalOutcome_mismatch finalizing settled ?_)
      intro agrees
      cases outcome : p.outcome <;> rw [outcome] at agrees
      case succeeded => exact h₁ outcome agrees.1 agrees.2.1 agrees.2.2
      case failed => exact h₂ outcome agrees
      case cancelled => exact h₃ outcome agrees
      case terminated => exact h₄ outcome agrees
      case timedOut => exact h₅ outcome agrees
      case invalid => exact agrees
  · have row : terminalOutcomeCommittedRow s.state = notAllowed := by
      cases state : s.state <;> first | rfl | exact absurd state finalizing
    exact row ▸ notAllowed_agrees given present nofun (if_pos finalizing)

end TerminalOutcome

theorem resourcesReleased_agrees {p : ResourcesReleasedPayload}
    (given : Presented lib s ⟨version, job, .resourcesReleased, .resourcesReleased p⟩)
    (present : s.entityExists = true) :
    RowAgrees lib s ⟨version, job, .resourcesReleased, .resourcesReleased p⟩ (resourcesReleasedRow s.state) := by
  by_cases terminal : s.state.isTerminal = true
  · have row : resourcesReleasedRow s.state = _ := if_pos terminal
    rw [row]
    -- Resources that a valid snapshot calls released were released after a confirmed exit.
    have released := (hasValidResourceFacts_iff.1 given.facts.2.2.1).2.2
    refine .cons (fun committed => ?_) fun h₁ => .cons (fun again => ?_) fun h₂ => .refused ?_
    · simp at committed
      refine given.agrees_accept present nofun ?_ rfl ?_ rfl
      · simp [decideByType, decideResourcesReleased, terminal, committed]
      · funext field
        cases field <;> rfl
    · simp at again
      refine given.agrees_accept present nofun ?_ rfl ?_ rfl
      · simp [decideByType, decideResourcesReleased, terminal, again, released again.1]
      · funext field
        cases field <;> first | rfl | exact congrArg Value.resource again.1.symm
    · simp at h₁ h₂
      refine given.agrees_reject present nofun ?_
      cases exit : s.processExitConfirmed <;> cases status : s.resourceStatus <;>
        simp_all [decideByType, decideResourcesReleased]
  · have row : resourcesReleasedRow s.state = notAllowed := if_neg terminal
    exact row ▸ notAllowed_agrees given present nofun (if_pos (by simpa using terminal))

theorem cleanupStatusRecorded_agrees {p : CleanupStatusPayload}
    (given : Presented lib s ⟨version, job, .cleanupStatusRecorded, .cleanupStatus p⟩)
    (present : s.entityExists = true) :
    RowAgrees lib s ⟨version, job, .cleanupStatusRecorded, .cleanupStatus p⟩
      (cleanupStatusRecordedRow s.state) := by
  by_cases terminal : s.state.isTerminal = true
  · have row : cleanupStatusRecordedRow s.state = _ := if_pos terminal
    rw [row]
    refine .cons (fun pending => ?_) fun h₁ => .cons (fun again => ?_) fun h₂ => .refused ?_
    · simp at pending
      refine given.agrees_accept present nofun ?_ rfl ?_ rfl
      · simp [decideByType, decideCleanupStatusRecorded, terminal, pending]
      · funext field
        cases field <;> rfl
    · simp at again
      refine given.agrees_accept present nofun ?_ rfl ?_ rfl
      · simp [decideByType, decideCleanupStatusRecorded, terminal, again]
      · funext field
        cases field <;> first | rfl | exact congrArg Value.cleanup again
    · simp at h₁ h₂
      exact given.agrees_reject present nofun
        (by simp [decideByType, decideCleanupStatusRecorded, terminal, h₁, Ne.symm h₂])
  · have row : cleanupStatusRecordedRow s.state = notAllowed := if_neg terminal
    exact row ▸ notAllowed_agrees given present nofun (if_pos (by simpa using terminal))

theorem lateWorkerEvent_agrees {payload : EventPayload}
    (given : Presented lib s ⟨version, job, .lateWorkerEvent, payload⟩) (present : s.entityExists = true) :
    RowAgrees lib s ⟨version, job, .lateWorkerEvent, payload⟩ (lateWorkerEventRow s.state) := by
  by_cases late : (s.state.isTerminal || s.state = .finalizing) = true
  · have row : lateWorkerEventRow s.state = lateWorkerEventRow .finalizing := by
      cases state : s.state <;> first | rfl | simp [state, JobState.isTerminal] at late
    rw [row]
    refine .last (given.agrees_accept present (by simp) (if_pos late) rfl ?_ rfl) rfl
    funext field
    cases field <;> rfl
  · have row : lateWorkerEventRow s.state = notAllowed := by
      cases state : s.state <;> first | rfl | exact absurd state given.closedState | skip
      all_goals exact absurd (by simp [state, JobState.isTerminal]) late
    exact row ▸ notAllowed_agrees given present (by simp) (if_neg late)

end Sitometron.Core.Contract
