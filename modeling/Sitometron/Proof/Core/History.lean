import Sitometron.Proof.Core.Invariant

/-!
# Whole histories

What a run of accepted proposals says about its past: which cause was latched, what a success needs, and
which facts stay once they are recorded.
-/

namespace Sitometron.Core

section Runs

variable {lib : Libraries} {s t start : Snapshot} {proposal : PreEnvelopeProposal}
  {history : List (Snapshot × PreEnvelopeProposal)}

theorem Proposed.decided (proposed : Proposed lib s proposal) : decideEvent lib s proposal.event = .ok proposal := by
  cases proposed with
  | command c accepted => exact decideCommand_proposes accepted
  | event e accepted => exact decideEvent_proposes accepted

theorem Accepts.transition (accepted : Accepts lib s proposal t) :
    Transition lib s proposal (t, (apply lib s proposal).effects) := by
  obtain ⟨proposed, rfl⟩ := accepted
  exact Transition.of_apply (apply_of_decided proposed.decided)

theorem Accepts.moves (accepted : Accepts lib s proposal t) :
    Moves s proposal.eventType proposal.payload (t, (apply lib s proposal).effects) := accepted.transition.moves

theorem runProposals_run {proposals : List PreEnvelopeProposal} (ran : runProposals lib start proposals = some (history, t)) :
    Run lib start history t := by
  induction proposals generalizing start history with
  | nil =>
      cases ran
      exact .nil
  | cons proposal rest ih =>
      rw [runProposals] at ran
      split at ran
      next decided =>
        obtain ⟨⟨later, last⟩, found, same⟩ := Option.map_eq_some_iff.1 ran
        cases same
        exact Trace.cons ⟨.event _ decided, rfl⟩ (ih found)
      next => cases ran

theorem Run.reachable (run : Run lib start history t) : Reachable lib start t := by
  induction run with
  | nil => exact .start
  | snoc _ accepted ih =>
      obtain ⟨proposed, rfl⟩ := accepted
      exact ih.step proposed

theorem Run.invariant {job session : Uuid} (run : Run lib (initialSnapshot job session) history s)
    (moved : history ≠ []) : Invariant s := by
  obtain ⟨⟨before, proposal⟩, later, rfl⟩ := List.exists_cons_of_ne_nil moved
  have split : Run lib (initialSnapshot job session) ([] ++ (before, proposal) :: later) s := run
  obtain ⟨first, t, accepted, -⟩ := Trace.at_step split
  obtain rfl : before = initialSnapshot job session := first.eq_start
  obtain ⟨canonical, same⟩ := validSnapshot_identity accepted.transition.valid
  obtain rfl : job = session := same
  exact (Invariant.initial canonical).reachable run.reachable

end Runs

section Audits

variable {s : Snapshot} {type : EventType} {payload : EventPayload} {u : Update}

inductive Audit (s : Snapshot) : EventType → EventPayload → Update → Prop
  | exitTimeout (generation : UInt64) : s.processExitConfirmed = false →
      Audit s .timeoutExpired (.timeoutExpired ⟨.processExitConfirmation, generation⟩)
        (applyProcessExitConfirmationTimeout s)
  | firstExit (p : ProcessExitConfirmedPayload) : s.processExitConfirmed = false →
      s.launchOperationId = some p.launchOperationId →
      Audit s .processExitConfirmed (.processExitConfirmed p)
        ({ confirmExit s with completionMode := p.completionMode },
          [.disarmCooperativeStopTimeout, .disarmProcessExitConfirmationTimeout])
  | sameExit (p : ProcessExitConfirmedPayload) : s.processExitConfirmed = true →
      s.completionMode = p.completionMode → s.launchOperationId = some p.launchOperationId →
      Audit s .processExitConfirmed (.processExitConfirmed p) (s, [])
  | resourcesReleased (p : ResourcesReleasedPayload) : s.processExitConfirmed = true →
      s.allocationId = some p.allocationId → s.allocationDigest = some p.allocationDigest →
      s.resourceStatus = .committed ∨ s.resourceStatus = .released →
      Audit s .resourcesReleased (.resourcesReleased p) ({ s with resourceStatus := .released }, [])
  | cleanupStatusRecorded (p : CleanupStatusPayload) : s.cleanupStatus = .pending ∨ s.cleanupStatus = p.status →
      Audit s .cleanupStatusRecorded (.cleanupStatus p) ({ s with cleanupStatus := p.status }, [])
  | lateWorkerEvent (p : LateWorkerEventPayload) :
      Audit s .lateWorkerEvent (.lateWorkerEvent p) (s, [.ackLateWorkerEvent])

theorem Moves.audit (moves : Moves s type payload u) (terminal : s.state.isTerminal = true)
    (unborn : s.entityExists = false → s.state = .admitted) : Audit s type payload u := by
  have not (state : JobState) (running : state.isTerminal = false) : s.state ≠ state := by
    rintro rfl
    rw [running] at terminal
    cases terminal
  cases moves with
  | exitConfirmationTimeout generation _ _ unconfirmed => exact .exitTimeout generation unconfirmed
  | processExitConfirmed p _ _ launch mode =>
      rw [applyProcessExitConfirmed, if_pos (by simp [terminal])]
      split
      next confirmed => exact .sameExit p confirmed (mode (.inr terminal) confirmed) launch
      next unconfirmed => exact .firstExit p (by simpa using unconfirmed) launch
  | resourcesReleased p _ _ confirmed id digest status => exact .resourcesReleased p confirmed id digest status
  | cleanupStatusRecorded p _ _ status => exact .cleanupStatusRecorded p status
  | lateWorkerEvent p => exact .lateWorkerEvent p
  | jobCreated p absent => exact absurd (unborn absent) (not _ rfl)
  | resourcesCommitted p _ state => exact absurd state (not _ rfl)
  | workerLaunchIntent p _ state => exact absurd state (not _ rfl)
  | workerLaunchObserved p _ state => exact absurd state (not _ rfl)
  | workerRunning p _ state => exact absurd state (not _ rfl)
  | cancelAccepted p _ state => rcases state with h | h | h <;> exact absurd h (not _ rfl)
  | terminateAccepted p _ state => rcases state with h | h | h <;> exact absurd h (not _ rfl)
  | terminateEscalated p _ state => rcases state with h | h <;> exact absurd h (not _ rfl)
  | preparationTimeout _ _ state => exact absurd state (not _ rfl)
  | runningTimeout _ _ state => exact absurd state (not _ rfl)
  | stoppingTimeout _ _ state => exact absurd state (not _ rfl)
  | cooperativeStopTimeout _ _ state => exact absurd state (not _ rfl)
  | finalizingTimeout _ _ state => exact absurd state (not _ rfl)
  | workerCompleted p _ state => rcases state with h | h <;> exact absurd h (not _ rfl)
  | workerFailed p _ state => rcases state with h | h | h <;> exact absurd h (not _ rfl)
  | sessionRetainRequested p _ state => exact absurd state (not _ rfl)
  | sessionRetained p _ state => exact absurd state (not _ rfl)
  | finalizationCompleted _ state => exact absurd state (not _ rfl)
  | finalizationFailed _ state => exact absurd state (not _ rfl)
  | terminalOutcomeCommitted p _ state => exact absurd state (not _ rfl)

theorem Audit.state (audit : Audit s type payload u) : u.1.state = s.state := by
  cases audit <;> rfl

end Audits

def Caused (s : Snapshot) : Prop :=
  match s.state with
  | .admitted | .preparing | .running => s.latchedReason = none ∧ s.completionCandidate = false
  | .stopping => s.latchedReason.isSome = true ∧ s.completionCandidate = false
  | .finalizing =>
      (s.latchedReason.isSome = true ∧ s.completionCandidate = false ∨
        s.latchedReason = none ∧ s.completionCandidate = true ∧ s.finalizationStatus ≠ .failed)
  | .succeeded => s.latchedReason = none ∧ s.completionCandidate = true
  | .failed => s.latchedReason = some .failed ∧ s.completionCandidate = false
  | .cancelled => s.latchedReason = some .cancelled ∧ s.completionCandidate = false
  | .terminated => s.latchedReason = some .terminated ∧ s.completionCandidate = false
  | .timedOut => s.latchedReason = some .timedOut ∧ s.completionCandidate = false
  | .invalid => False

section Causes

variable {s : Snapshot} {type : EventType} {payload : EventPayload} {u : Update}

theorem caused_beginFinalizing {s : Snapshot} (latched : s.latchedReason.isSome = true)
    (noCandidate : s.completionCandidate = false) : Caused (beginFinalizing s) :=
  .inl ⟨latched, noCandidate⟩

theorem Caused.early (caused : Caused s) (early : s.state = .admitted ∨ s.state = .preparing ∨ s.state = .running) :
    s.latchedReason = none ∧ s.completionCandidate = false := by
  rcases early with state | state | state <;> simpa only [Caused, state] using caused

theorem Caused.stopping (caused : Caused s) (state : s.state = .stopping) :
    s.latchedReason.isSome = true ∧ s.completionCandidate = false := by
  simpa only [Caused, state] using caused

theorem Caused.finalizing (caused : Caused s) (state : s.state = .finalizing) :
    s.latchedReason.isSome = true ∧ s.completionCandidate = false ∨
      s.latchedReason = none ∧ s.completionCandidate = true ∧ s.finalizationStatus ≠ .failed := by
  simpa only [Caused, state] using caused

theorem Moves.caused (moves : Moves s type payload u) (caused : Caused s) : Caused u.1 := by
  cases moves with
  | jobCreated p _ => exact ⟨rfl, rfl⟩
  | resourcesCommitted p _ state => exact caused.early (.inl state)
  | workerLaunchIntent p _ state =>
      have none := caused.early (.inr (.inl state))
      simpa only [Caused, applyWorkerLaunchIntent, state] using none
  | workerLaunchObserved p _ state =>
      have none := caused.early (.inr (.inl state))
      unfold applyWorkerLaunchObserved
      split
      · simpa only [Caused, state] using none
      · exact caused_beginFinalizing rfl none.2
  | workerRunning p _ state => exact caused.early (.inr (.inl state))
  | cancelAccepted p _ state =>
      have none := caused.early state
      unfold applyCancelAccepted
      split
      · exact caused_beginFinalizing rfl none.2
      · exact ⟨rfl, none.2⟩
  | terminateAccepted p _ state =>
      have none := caused.early state
      rw [applyTerminateAccepted_early state]
      split
      · exact caused_beginFinalizing rfl none.2
      · exact ⟨rfl, none.2⟩
  | terminateEscalated p _ state =>
      rw [applyTerminateAccepted_late state]
      exact caused
  | preparationTimeout _ _ state =>
      have none := caused.early (.inr (.inl state))
      unfold applyPreparationTimeout
      split
      · exact caused_beginFinalizing rfl none.2
      · exact ⟨rfl, none.2⟩
  | runningTimeout _ _ state => exact ⟨rfl, (caused.early (.inr (.inr state))).2⟩
  | stoppingTimeout => exact caused
  | cooperativeStopTimeout => exact caused
  | finalizingTimeout _ _ state =>
      rcases caused.finalizing state with ⟨latched, none⟩ | ⟨none, candidate, -⟩
      · have kept : (s.latchedReason.isNone && s.completionCandidate) = false := by simp [none]
        simp only [applyFinalizingExecutionTimeout, kept, Bool.and_false, Bool.false_eq_true, if_false]
        split <;> exact caused
      · have replaced : (s.latchedReason.isNone && s.completionCandidate) = true := by simp [none, candidate]
        simp only [applyFinalizingExecutionTimeout, replaced, Bool.and_true, if_true]
        split <;> simp [Caused, state]
  | exitConfirmationTimeout => exact caused
  | workerCompleted p _ state =>
      unfold applyWorkerCompleted
      split
      next running => exact .inr ⟨(caused.early (.inr (.inr running))).1, rfl, by rintro ⟨⟩⟩
      next idle =>
        have stopped := caused.stopping (state.resolve_left idle)
        exact .inl stopped
  | workerFailed p _ state =>
      unfold applyWorkerFailed
      split
      next early =>
        have none := caused.early (.inr (by simpa using early))
        exact .inl ⟨rfl, none.2⟩
      next late =>
        simp only [Bool.or_eq_true, decide_eq_true_eq, not_or] at late
        have stopped := caused.stopping ((state.resolve_left late.1).resolve_left late.2)
        exact .inl stopped
  | processExitConfirmed p _ state =>
      unfold applyProcessExitConfirmed
      split
      next =>
        split
        · exact caused
        · exact caused
      next notLate =>
        split
        next preparing => exact .inl ⟨rfl, (caused.early (.inr (.inl preparing))).2⟩
        next =>
          split
          next running => exact .inl ⟨rfl, (caused.early (.inr (.inr running))).2⟩
          next =>
            split
            next stopping => exact .inl (caused.stopping stopping)
            next => exact caused
  | sessionRetainRequested => exact caused
  | sessionRetained => exact caused
  | finalizationCompleted _ state =>
      rcases caused.finalizing state with latched | ⟨none, candidate, -⟩
      · simpa [Caused, state] using Or.inl latched
      · simp [Caused, state, none, candidate]
  | finalizationFailed _ state =>
      unfold applyFinalizationFailed
      rcases caused.finalizing state with ⟨latched, none⟩ | ⟨none, candidate, -⟩
      · simp [Caused, state, latched, none]
      · simp [Caused, state, none, candidate]
  | terminalOutcomeCommitted p _ state status agrees =>
      obtain ⟨outcome⟩ := p
      have sole (reason : TerminalOutcome) (latched : s.latchedReason = some reason) : s.completionCandidate = false := by
        rcases caused.finalizing state with ⟨-, none⟩ | ⟨none, -⟩
        · exact none
        · simp [latched] at none
      cases outcome with
      | succeeded => exact ⟨agrees.1, agrees.2.1⟩
      | failed => exact ⟨agrees, sole _ agrees⟩
      | cancelled => exact ⟨agrees, sole _ agrees⟩
      | terminated => exact ⟨agrees, sole _ agrees⟩
      | timedOut => exact ⟨agrees, sole _ agrees⟩
      | invalid => cases agrees
  | resourcesReleased => exact caused
  | cleanupStatusRecorded => exact caused
  | lateWorkerEvent => exact caused

def Spoils (s : Snapshot) (type : EventType) (payload : EventPayload) : Prop :=
  type = .cancelAccepted ∨ type = .finalizationFailed ∨
    s.state = .finalizing ∧ ∃ generation, payload = .timeoutExpired ⟨.execution, generation⟩

def Completes (s : Snapshot) (type : EventType) (payload : EventPayload) : Prop :=
  s.state = .running ∧ type = .workerCompleted ∧ ∃ p, payload = .workerEvent p ∧ s.workerId = some p.workerId

inductive Cause (s : Snapshot) (type : EventType) (payload : EventPayload) (t : Snapshot) : Prop
  | kept : t.latchedReason = s.latchedReason → t.completionCandidate = s.completionCandidate →
      (s.latchedReason = none → ¬Spoils s type payload ∧
        (type = .terminateAccepted → s.completionCandidate = true)) → Cause s type payload t
  | latched : s.latchedReason = none → t.latchedReason.isSome = true → Cause s type payload t
  | completed : s.latchedReason = none → s.completionCandidate = false → t.latchedReason = none →
      t.completionCandidate = true → Completes s type payload → Cause s type payload t

theorem Cause.other {t : Snapshot} (reason : t.latchedReason = s.latchedReason)
    (candidate : t.completionCandidate = s.completionCandidate) (notCancel : type ≠ .cancelAccepted)
    (notFailed : type ≠ .finalizationFailed) (notTerminate : type ≠ .terminateAccepted)
    (notTimeout : s.state = .finalizing → ∀ generation, payload ≠ .timeoutExpired ⟨.execution, generation⟩) :
    Cause s type payload t := by
  refine .kept reason candidate fun _ => ⟨?_, fun terminate => absurd terminate notTerminate⟩
  rintro (cancel | failed | ⟨state, generation, timeout⟩)
  · exact notCancel cancel
  · exact notFailed failed
  · exact notTimeout state generation timeout

theorem Moves.cause (moves : Moves s type payload u) (caused : Caused s)
    (unborn : s.entityExists = false → s.state = .admitted) : Cause s type payload u.1 := by
  cases moves with
  | jobCreated p absent =>
      have none := caused.early (.inl (unborn absent))
      exact .other none.1.symm none.2.symm (by simp) (by simp) (by simp) (by simp)
  | resourcesCommitted => exact .other rfl rfl (by simp) (by simp) (by simp) (by simp)
  | workerLaunchIntent => exact .other rfl rfl (by simp) (by simp) (by simp) (by simp)
  | workerLaunchObserved p _ state =>
      unfold applyWorkerLaunchObserved
      split
      · exact .other rfl rfl (by simp) (by simp) (by simp) (by simp)
      · exact .latched (caused.early (.inr (.inl state))).1 rfl
  | workerRunning => exact .other rfl rfl (by simp) (by simp) (by simp) (by simp)
  | cancelAccepted p _ state =>
      unfold applyCancelAccepted
      split <;> exact .latched (caused.early state).1 rfl
  | terminateAccepted p _ state =>
      rw [applyTerminateAccepted_early state]
      split <;> exact .latched (caused.early state).1 rfl
  | terminateEscalated p _ state =>
      rw [applyTerminateAccepted_late state]
      refine .kept rfl rfl fun none => ⟨by simp [Spoils], fun _ => ?_⟩
      rcases state with stopping | finalizing
      · have latched := (caused.stopping stopping).1
        simp [none] at latched
      · rcases caused.finalizing finalizing with ⟨latched, -⟩ | ⟨-, candidate, -⟩
        · simp [none] at latched
        · exact candidate
  | preparationTimeout _ _ state =>
      unfold applyPreparationTimeout
      split <;> exact .latched (caused.early (.inr (.inl state))).1 rfl
  | runningTimeout _ _ state => exact .latched (caused.early (.inr (.inr state))).1 rfl
  | stoppingTimeout _ _ state => exact .other rfl rfl (by simp) (by simp) (by simp) (by simp [state])
  | cooperativeStopTimeout => exact .other rfl rfl (by simp) (by simp) (by simp) (by simp)
  | finalizingTimeout _ _ state =>
      rcases caused.finalizing state with ⟨latched, none⟩ | ⟨none, candidate, -⟩
      · have kept : (s.latchedReason.isNone && s.completionCandidate) = false := by simp [none]
        simp only [applyFinalizingExecutionTimeout, kept, Bool.and_false, Bool.false_eq_true, if_false]
        split <;> exact .kept rfl rfl fun absent => by simp [absent] at latched
      · have replaced : (s.latchedReason.isNone && s.completionCandidate) = true := by simp [none, candidate]
        simp only [applyFinalizingExecutionTimeout, replaced, Bool.and_true, if_true]
        split <;> exact .latched none rfl
  | exitConfirmationTimeout => exact .other rfl rfl (by simp) (by simp) (by simp) (by simp)
  | workerCompleted p _ state worker =>
      unfold applyWorkerCompleted
      split
      next running =>
        have none := caused.early (.inr (.inr running))
        exact .completed none.1 none.2 none.1 rfl ⟨running, rfl, p, rfl, worker⟩
      next => exact .other rfl rfl (by simp) (by simp) (by simp) (by simp)
  | workerFailed p _ state =>
      unfold applyWorkerFailed
      split
      next early => exact .latched (caused.early (.inr (by simpa using early))).1 rfl
      next => exact .other rfl rfl (by simp) (by simp) (by simp) (by simp)
  | processExitConfirmed p _ state =>
      unfold applyProcessExitConfirmed
      split
      next => split <;> exact .other rfl rfl (by simp) (by simp) (by simp) (by simp)
      next =>
        split
        next preparing => exact .latched (caused.early (.inr (.inl preparing))).1 rfl
        next =>
          split
          next running => exact .latched (caused.early (.inr (.inr running))).1 rfl
          next => split <;> exact .other rfl rfl (by simp) (by simp) (by simp) (by simp)
  | sessionRetainRequested => exact .other rfl rfl (by simp) (by simp) (by simp) (by simp)
  | sessionRetained => exact .other rfl rfl (by simp) (by simp) (by simp) (by simp)
  | finalizationCompleted => exact .other rfl rfl (by simp) (by simp) (by simp) (by simp)
  | finalizationFailed _ state =>
      rcases caused.finalizing state with ⟨latched, none⟩ | ⟨none, candidate, -⟩
      · refine .kept ?_ ?_ fun absent => by simp [absent] at latched
        · simp [applyFinalizationFailed, none]
        · simp [applyFinalizationFailed, none]
      · exact .latched none (by simp [applyFinalizationFailed, none, candidate])
  | terminalOutcomeCommitted => exact .other rfl rfl (by simp) (by simp) (by simp) (by simp)
  | resourcesReleased => exact .other rfl rfl (by simp) (by simp) (by simp) (by simp)
  | cleanupStatusRecorded => exact .other rfl rfl (by simp) (by simp) (by simp) (by simp)
  | lateWorkerEvent => exact .other rfl rfl (by simp) (by simp) (by simp) (by simp)

end Causes

section Finalization

variable {s t : Snapshot} {type : EventType} {payload : EventPayload} {u : Update}

inductive Progress (s : Snapshot) (type : EventType) (t : Snapshot) : Prop
  | kept : t.state = s.state → t.finalizationStatus = s.finalizationStatus →
      (t.sessionRetentionStatus = .retained → s.sessionRetentionStatus = .retained ∨ type = .sessionRetained) →
      Progress s type t
  | begun : s.state.isEarly = true →
      t.state.isEarly = true ∨ t.state = .finalizing ∧ t.finalizationStatus = .pending →
      (t.sessionRetentionStatus = .retained → s.sessionRetentionStatus = .retained) → Progress s type t
  | completed : type = .finalizationCompleted → s.finalizationStatus = .pending → s.sessionRetentionStatus = .retained →
      t.sessionRetentionStatus = s.sessionRetentionStatus → t.state = s.state → Progress s type t
  | failed : t.finalizationStatus = .failed → t.sessionRetentionStatus = s.sessionRetentionStatus →
      t.state = s.state → Progress s type t
  | ended : s.state = .finalizing → t.state.isTerminal = true → t.sessionRetentionStatus = s.sessionRetentionStatus →
      (t.state = .succeeded → s.finalizationStatus = .completed) → Progress s type t

theorem Moves.progress (moves : Moves s type payload u) (unborn : s.entityExists = false → s.state = .admitted) :
    Progress s type u.1 := by
  have early (state : JobState) (at_ : s.state = state) (first : state.isEarly = true) : s.state.isEarly = true :=
    at_ ▸ first
  cases moves with
  | jobCreated p absent => exact .begun (early _ (unborn absent) rfl) (.inl rfl) (by rintro ⟨⟩)
  | resourcesCommitted p _ state => exact .begun (early _ state rfl) (.inl rfl) id
  | workerLaunchIntent => exact .kept rfl rfl .inl
  | workerLaunchObserved p _ state =>
      unfold applyWorkerLaunchObserved
      split
      · exact .kept rfl rfl .inl
      · exact .begun (early _ state rfl) (.inr ⟨rfl, rfl⟩) id
  | workerRunning p _ state => exact .begun (early _ state rfl) (.inl rfl) id
  | cancelAccepted p _ state =>
      have first : s.state.isEarly = true := by rcases state with h | h | h <;> exact early _ h rfl
      unfold applyCancelAccepted
      split
      · exact .begun first (.inr ⟨rfl, rfl⟩) id
      · exact .begun first (.inl rfl) id
  | terminateAccepted p _ state =>
      have first : s.state.isEarly = true := by rcases state with h | h | h <;> exact early _ h rfl
      unfold applyTerminateAccepted
      split
      · exact .kept rfl rfl .inl
      · split
        · exact .begun first (.inr ⟨rfl, rfl⟩) id
        · exact .begun first (.inl rfl) id
  | terminateEscalated p _ state =>
      rw [applyTerminateAccepted_late state]
      exact .kept rfl rfl .inl
  | preparationTimeout _ _ state =>
      unfold applyPreparationTimeout
      split
      · exact .begun (early _ state rfl) (.inr ⟨rfl, rfl⟩) id
      · exact .begun (early _ state rfl) (.inl rfl) id
  | runningTimeout _ _ state => exact .begun (early _ state rfl) (.inl rfl) id
  | stoppingTimeout => exact .kept rfl rfl .inl
  | cooperativeStopTimeout => exact .kept rfl rfl .inl
  | finalizingTimeout =>
      simp only [applyFinalizingExecutionTimeout]
      repeat' split
      all_goals exact .kept rfl rfl .inl
  | exitConfirmationTimeout => exact .kept rfl rfl .inl
  | workerCompleted p _ state =>
      have first : s.state.isEarly = true := by rcases state with h | h <;> exact early _ h rfl
      unfold applyWorkerCompleted
      split <;> exact .begun first (.inr ⟨rfl, rfl⟩) id
  | workerFailed p _ state =>
      have first : s.state.isEarly = true := by rcases state with h | h | h <;> exact early _ h rfl
      unfold applyWorkerFailed
      split <;> exact .begun first (.inr ⟨rfl, rfl⟩) id
  | processExitConfirmed =>
      unfold applyProcessExitConfirmed
      split
      next => split <;> exact .kept rfl rfl .inl
      next =>
        split
        next preparing => exact .begun (early _ preparing rfl) (.inr ⟨rfl, rfl⟩) id
        next =>
          split
          next running => exact .begun (early _ running rfl) (.inr ⟨rfl, rfl⟩) id
          next =>
            split
            next stopping => exact .begun (early _ stopping rfl) (.inr ⟨rfl, rfl⟩) id
            next => exact .kept rfl rfl .inl
  | sessionRetainRequested => exact .kept rfl rfl (by simp)
  | sessionRetained => exact .kept rfl rfl fun _ => .inr rfl
  | finalizationCompleted _ _ retained pending => exact .completed rfl pending retained rfl rfl
  | finalizationFailed =>
      unfold applyFinalizationFailed
      split <;> exact .failed rfl rfl rfl
  | terminalOutcomeCommitted p _ state _ agrees =>
      obtain ⟨outcome⟩ := p
      refine .ended state ?_ rfl ?_
      · cases outcome <;> rfl
      · intro succeeded
        cases outcome with
        | succeeded => exact agrees.2.2
        | _ => cases succeeded
  | resourcesReleased => exact .kept rfl rfl .inl
  | cleanupStatusRecorded => exact .kept rfl rfl .inl
  | lateWorkerEvent => exact .kept rfl rfl .inl

end Finalization

section Histories

variable {lib : Libraries} {job session : Uuid} {s t : Snapshot} {proposal : PreEnvelopeProposal}
  {history later : List (Snapshot × PreEnvelopeProposal)}

theorem Run.unborn (run : Run lib (initialSnapshot job session) history s) (absent : s.entityExists = false) :
    s.state = .admitted := by
  rw [run.reachable.unborn absent]
  rfl

theorem Run.caused (run : Run lib (initialSnapshot job session) history s) : Caused s :=
  run.keeps Caused ⟨rfl, rfl⟩ fun _ _ _ caused accepted => accepted.moves.caused caused

theorem Run.cause (run : Run lib (initialSnapshot job session) history s) (accepted : Accepts lib s proposal t) :
    Cause s proposal.eventType proposal.payload t := accepted.moves.cause run.caused run.unborn

def CompletedUnstopped (history : List (Snapshot × PreEnvelopeProposal)) : Prop :=
  ∃ before step after, history = before ++ step :: after ∧ Completes step.1 step.2.eventType step.2.payload ∧
    ∀ earlier ∈ before, earlier.2.eventType ≠ .terminateAccepted

def Contains (type : EventType) (history : List (Snapshot × PreEnvelopeProposal)) : Prop :=
  ∃ step ∈ history, step.2.eventType = type

structure Explains (history : List (Snapshot × PreEnvelopeProposal)) (s : Snapshot) : Prop where
  unspoiled : s.latchedReason = none → ∀ step ∈ history, ¬Spoils step.1 step.2.eventType step.2.payload
  unstopped : s.latchedReason = none → s.completionCandidate = false →
    ∀ step ∈ history, step.2.eventType ≠ .terminateAccepted
  completed : s.latchedReason = none → s.completionCandidate = true → CompletedUnstopped history
  retained : s.sessionRetentionStatus = .retained → Contains .sessionRetained history
  finalized : s.state = .finalizing → s.finalizationStatus = .completed →
    Contains .sessionRetained history ∧ Contains .finalizationCompleted history
  succeeded : s.state = .succeeded → Contains .sessionRetained history ∧ Contains .finalizationCompleted history

theorem Contains.append {type : EventType} (contains : Contains type history) : Contains type (history ++ later) := by
  obtain ⟨step, member, same⟩ := contains
  exact ⟨step, List.mem_append_left _ member, same⟩

theorem CompletedUnstopped.append (completed : CompletedUnstopped history) : CompletedUnstopped (history ++ later) := by
  obtain ⟨before, step, after, rfl, completes, unstopped⟩ := completed
  exact ⟨before, step, after ++ later, by simp, completes, unstopped⟩

theorem forall_mem_snoc {p : Snapshot × PreEnvelopeProposal → Prop} {step : Snapshot × PreEnvelopeProposal}
    (all : ∀ x ∈ history, p x) (last : p step) : ∀ x ∈ history ++ [step], p x := by
  intro x member
  rcases List.mem_append.1 member with inside | same
  · exact all x inside
  · rw [List.mem_singleton.1 same]
    exact last

theorem Explains.step (explains : Explains history s) (cause : Cause s proposal.eventType proposal.payload t)
    (progress : Progress s proposal.eventType t) : Explains (history ++ [(s, proposal)]) t := by
  constructor
  case unspoiled =>
    intro none
    cases cause with
    | kept reason _ harmless =>
        have before := reason ▸ none
        exact forall_mem_snoc (explains.unspoiled before) (harmless before).1
    | latched _ latched => simp [none] at latched
    | completed before _ _ _ completes =>
        refine forall_mem_snoc (explains.unspoiled before) ?_
        obtain ⟨state, type, p, body, -⟩ := completes
        rintro (cancel | failed | ⟨finalizing, -⟩)
        · simp [type] at cancel
        · simp [type] at failed
        · simp [state] at finalizing
  case unstopped =>
    intro none noCandidate
    cases cause with
    | kept reason candidate harmless =>
        have before := reason ▸ none
        have missing := candidate ▸ noCandidate
        refine forall_mem_snoc (explains.unstopped before missing) fun terminate => ?_
        simp [missing] at harmless
        exact (harmless before).2 terminate
    | latched _ latched => simp [none] at latched
    | completed _ _ _ candidate _ => simp [noCandidate] at candidate
  case completed =>
    intro none candidate
    cases cause with
    | kept reason same _ => exact (explains.completed (reason ▸ none) (same ▸ candidate)).append
    | latched _ latched => simp [none] at latched
    | completed before missing _ _ completes =>
        exact ⟨history, (s, proposal), [], rfl, completes, explains.unstopped before missing⟩
  case retained =>
    intro retained
    have last (type : proposal.eventType = .sessionRetained) : Contains .sessionRetained (history ++ [(s, proposal)]) :=
      ⟨(s, proposal), by simp, type⟩
    cases progress with
    | kept _ _ source =>
        rcases source retained with before | type
        · exact (explains.retained before).append
        · exact last type
    | begun _ _ source => exact (explains.retained (source retained)).append
    | completed _ _ before => exact (explains.retained before).append
    | failed _ same => exact (explains.retained (same ▸ retained)).append
    | ended _ _ same => exact (explains.retained (same ▸ retained)).append
  case finalized =>
    intro finalizing completed
    cases progress with
    | kept state status =>
        have before := explains.finalized (state ▸ finalizing) (status ▸ completed)
        exact ⟨before.1.append, before.2.append⟩
    | begun _ state =>
        rcases state with early | ⟨-, pending⟩
        · simp [finalizing, JobState.isEarly] at early
        · simp [completed] at pending
    | completed type _ retained => exact ⟨(explains.retained retained).append, (s, proposal), by simp, type⟩
    | failed status => simp [completed] at status
    | ended _ terminal => simp [finalizing, JobState.isTerminal] at terminal
  case succeeded =>
    intro succeeded
    have kept (state : t.state = s.state) : Contains .sessionRetained (history ++ [(s, proposal)]) ∧
        Contains .finalizationCompleted (history ++ [(s, proposal)]) := by
      have before := explains.succeeded (state ▸ succeeded)
      exact ⟨before.1.append, before.2.append⟩
    cases progress with
    | kept state => exact kept state
    | begun _ state =>
        rcases state with early | ⟨state, -⟩
        · simp [succeeded, JobState.isEarly] at early
        · simp [succeeded] at state
    | completed _ _ _ _ state => exact kept state
    | failed _ _ state => exact kept state
    | ended finalizing _ _ status =>
        have before := explains.finalized finalizing (status succeeded)
        exact ⟨before.1.append, before.2.append⟩

theorem Run.explains (run : Run lib (initialSnapshot job session) history s) : Explains history s := by
  induction run with
  | nil => exact ⟨by simp, by simp, nofun, nofun, nofun, nofun⟩
  | snoc run accepted ih => exact ih.step (Run.cause run accepted) (accepted.moves.progress (Run.unborn run))

theorem Run.born (run : Run lib (initialSnapshot job session) history s) (state : s.state ≠ .admitted) :
    s.entityExists = true ∧ history ≠ [] := by
  constructor
  · cases present : s.entityExists with
    | true => rfl
    | false => exact absurd (run.unborn present) state
  · rintro rfl
    exact state (congrArg Snapshot.state run.eq_start)

theorem Run.keepsReason (reached : Run lib (initialSnapshot job session) history s) (continued : Run lib s later t)
    {reason : TerminalOutcome} (latched : s.latchedReason = some reason) : t.latchedReason = some reason := by
  induction continued with
  | nil => exact latched
  | snoc run accepted ih =>
      cases Run.cause (reached.trans run) accepted with
      | kept same => rw [same, ih]
      | latched none => simp [ih] at none
      | completed none => simp [ih] at none

theorem Run.keepsTerminal (reached : Run lib (initialSnapshot job session) history s) (continued : Run lib s later t)
    (terminal : s.state.isTerminal = true) : t.state = s.state := by
  induction continued with
  | nil => rfl
  | snoc run accepted ih =>
      have audit := accepted.moves.audit (ih ▸ terminal) (Run.unborn (reached.trans run))
      rw [← ih]
      exact audit.state

def terminalOutcomeEvent (s : Snapshot) (p : TerminalOutcomePayload) : InternalEvent :=
  ⟨1, s.jobId, .terminalOutcomeCommitted, .terminalOutcome p⟩

theorem terminalOutcome_accepted_iff (inv : Invariant s) (present : s.entityExists = true)
    (finalizing : s.state = .finalizing) (reported : s.finalizationStatus ≠ .pending) (p : TerminalOutcomePayload) :
    (∃ proposal, decideEvent lib s (terminalOutcomeEvent s p) = .ok proposal) ↔ OutcomeAgrees s p.outcome := by
  have canonical := (validSnapshot_identity inv.valid).1
  obtain ⟨outcome⟩ := p
  have guard : (∃ proposal, decideEvent lib s (terminalOutcomeEvent s ⟨outcome⟩) = .ok proposal) ↔
      outcome ≠ .invalid ∧ ∃ proposal, decideTerminalOutcomeCommitted s (terminalOutcomeEvent s ⟨outcome⟩) = .ok proposal := by
    simp only [decideEvent_eq_ok_iff, terminalOutcomeEvent, inv.valid, canonical, present, true_and, reduceCtorEq,
      false_and, false_or, ne_eq, not_false_eq_true, decideByType, validInternalPayload, payloadMatches]
    simp
  rw [guard]
  cases outcome <;>
    simp [decideTerminalOutcomeCommitted, terminalOutcomeEvent, finalizing, reported, OutcomeAgrees, acceptEvent, and_assoc]

theorem terminalOutcome_unique (run : Run lib (initialSnapshot job session) history s)
    (finalizing : s.state = .finalizing) (reported : s.finalizationStatus ≠ .pending) :
    ∃! p, ∃ proposal, decideEvent lib s (terminalOutcomeEvent s p) = .ok proposal := by
  obtain ⟨present, moved⟩ := run.born (by simp [finalizing])
  have inv := run.invariant moved
  have accepted := @terminalOutcome_accepted_iff lib s inv present finalizing reported
  have facts := hasValidStateFacts_iff.1 inv.stateFacts
  have closed := hasValidSnapshotEnums_iff.1 inv.enums
  have domains := hasValidSnapshotOptionalDomains_iff.1 inv.domains
  rcases run.caused.finalizing finalizing with ⟨latched, -⟩ | ⟨none, candidate, notFailed⟩
  · obtain ⟨reason, latched⟩ := Option.isSome_iff_exists.1 latched
    have known := domains.1 reason latched
    refine ⟨⟨reason⟩, (accepted _).2 ?_, fun p other => ?_⟩
    · cases reason <;> simp_all [OutcomeAgrees]
    · have agrees := (accepted p).1 other
      obtain ⟨outcome⟩ := p
      cases outcome <;> simp_all [OutcomeAgrees]
  · have completed : s.finalizationStatus = .completed := by
      have started := facts.2.2.1 finalizing
      cases status : s.finalizationStatus <;> simp_all
    refine ⟨⟨.succeeded⟩, (accepted _).2 ⟨none, candidate, completed⟩, fun p other => ?_⟩
    have agrees := (accepted p).1 other
    obtain ⟨outcome⟩ := p
    cases outcome <;> simp_all [OutcomeAgrees]

structure Succeeded (history : List (Snapshot × PreEnvelopeProposal)) : Prop where
  completed : CompletedUnstopped history
  retained : Contains .sessionRetained history
  finalized : Contains .finalizationCompleted history
  notCancelled : ∀ step ∈ history, step.2.eventType ≠ .cancelAccepted
  notFailed : ∀ step ∈ history, step.2.eventType ≠ .finalizationFailed
  notTimedOut : ∀ step ∈ history, step.1.state = .finalizing →
    ∀ generation, step.2.payload ≠ .timeoutExpired ⟨.execution, generation⟩

theorem Run.succeeded (run : Run lib (initialSnapshot job session) history s) (state : s.state = .succeeded) :
    Succeeded history := by
  have explains := run.explains
  obtain ⟨none, candidate⟩ : s.latchedReason = none ∧ s.completionCandidate = true := by
    simpa only [Caused, state] using run.caused
  have clean := explains.unspoiled none
  have facts := explains.succeeded state
  refine ⟨explains.completed none candidate, facts.1, facts.2, ?_, ?_, ?_⟩
  · intro step member cancel
    exact clean step member (.inl cancel)
  · intro step member failed
    exact clean step member (.inr (.inl failed))
  · intro step member finalizing generation timeout
    exact clean step member (.inr (.inr ⟨finalizing, generation, timeout⟩))

/-- The first cause wins, one outcome is possible, and a success has the history of one. -/
theorem firstCause_wins (lib : Libraries) (job session : Uuid) (history later : List (Snapshot × PreEnvelopeProposal))
    (s t : Snapshot) (reached : Run lib (initialSnapshot job session) history s) (continued : Run lib s later t) :
    ((∀ reason, s.latchedReason = some reason → t.latchedReason = some reason) ∧
        (s.state.isTerminal = true → t.state = s.state)) ∧
      ((s.state = .finalizing ∨ s.state.isTerminal = true →
          Xor (s.latchedReason.isSome = true) (s.completionCandidate = true)) ∧
        (s.state.isTerminal = true → s.state = jobStateForOutcome (s.latchedReason.getD .succeeded) ∧
          s.latchedReason ≠ some .succeeded ∧ s.latchedReason ≠ some .invalid)) ∧
      (s.state = .finalizing → s.finalizationStatus ≠ .pending →
        ∃! p, ∃ proposal, decideEvent lib s (terminalOutcomeEvent s p) = .ok proposal) ∧
      (s.state = .succeeded → Succeeded history) := by
  have caused := reached.caused
  refine ⟨⟨fun reason => reached.keepsReason continued, reached.keepsTerminal continued⟩, ⟨?_, ?_⟩,
    terminalOutcome_unique reached, reached.succeeded⟩
  · rintro (finalizing | terminal)
    · rcases caused.finalizing finalizing with ⟨latched, none⟩ | ⟨none, candidate, -⟩
      · exact .inl ⟨latched, by simp [none]⟩
      · exact .inr ⟨candidate, by simp [none]⟩
    · cases state : s.state <;> simp [state, JobState.isTerminal] at terminal <;>
        simp only [Caused, state] at caused <;> simp [Xor, caused]
  · intro terminal
    cases state : s.state <;> simp [state, JobState.isTerminal] at terminal <;>
      simp only [Caused, state] at caused <;> simp [caused, jobStateForOutcome]

end Histories

def sampleWorker : Uuid := ⟨text "01890000-0000-4000-8000-000000000002"⟩

def sampleProposal (type : EventType) (payload : EventPayload) : PreEnvelopeProposal :=
  { jobId := sampleJob, eventType := type, payload }

def sampleStart : List PreEnvelopeProposal :=
  let digest : Digest := ⟨text "44136fa355b3678a1146ad16f7e8649e94fb4fc21fe77e8310c060f61caaff8a"⟩
  [sampleCreated, sampleCommitted,
    sampleProposal .workerLaunchIntent (.workerLaunchIntent ⟨⟨text "operation-1"⟩, ⟨text "application-1"⟩, text "1",
      digest, ⟨text "allocation-1"⟩, digest, sampleWorker⟩),
    sampleProposal .workerLaunchObserved (.workerLaunchObserved ⟨⟨text "operation-1"⟩, true⟩),
    sampleProposal .workerRunning (.workerRunning ⟨sampleWorker⟩)]

def sampleSuccess : List PreEnvelopeProposal :=
  sampleStart ++ [sampleProposal .workerCompleted (.workerEvent ⟨sampleWorker, 1⟩),
    sampleProposal .sessionRetainRequested (.session ⟨sampleJob⟩),
    sampleProposal .sessionRetained (.session ⟨sampleJob⟩),
    sampleProposal .finalizationCompleted .empty,
    sampleProposal .terminalOutcomeCommitted (.terminalOutcome ⟨.succeeded⟩)]

theorem firstCause_wins_success : ∃ history s,
    runProposals sampleLibraries (initialSnapshot sampleJob sampleJob) sampleSuccess = some (history, s) ∧
      s.state = .succeeded ∧ Succeeded history := by
  have evaluated : (runProposals sampleLibraries (initialSnapshot sampleJob sampleJob) sampleSuccess).map
      (fun run => run.2.state) = some .succeeded := by decide +kernel
  obtain ⟨⟨history, s⟩, ran, succeeded⟩ := Option.map_eq_some_iff.1 evaluated
  have facts := firstCause_wins sampleLibraries sampleJob sampleJob history [] s s (runProposals_run ran) .nil
  exact ⟨history, s, ran, succeeded, facts.2.2.2 succeeded⟩


end Sitometron.Core
