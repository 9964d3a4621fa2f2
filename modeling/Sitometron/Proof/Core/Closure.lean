import Sitometron.Proof.Core.History

/-!
# Facts that stay

What holds of a Job once its cleanup is over, which recorded facts a later event can still change, and when
a repeated fact is accepted again.
-/

namespace Sitometron.Core

section Closed

variable {lib : Libraries} {job session : Uuid} {s t : Snapshot} {proposal : PreEnvelopeProposal} {type : EventType}
  {payload : EventPayload} {u : Update} {history later : List (Snapshot × PreEnvelopeProposal)}

def Allocated (s : Snapshot) : Prop :=
  s.state = .admitted ∨ s.resourceStatus ≠ .none ∨ s.processExitConfirmed = true

theorem Moves.allocated (moves : Moves s type payload u) (allocated : Allocated s) : Allocated u.1 := by
  have kept (state : JobState) (at_ : s.state = state) (left : state ≠ .admitted) :
      s.resourceStatus ≠ .none ∨ s.processExitConfirmed = true :=
    allocated.resolve_left (at_ ▸ left)
  cases moves with
  | jobCreated => exact .inl rfl
  | resourcesCommitted => exact .inr (.inl (by rintro ⟨⟩))
  | workerLaunchIntent p _ state => exact .inr (kept _ state (by simp))
  | workerLaunchObserved p _ state =>
      unfold applyWorkerLaunchObserved
      split
      · exact .inr (kept _ state (by simp))
      · exact .inr (.inr rfl)
  | workerRunning p _ state => exact .inr (kept _ state (by simp))
  | cancelAccepted p _ state =>
      unfold applyCancelAccepted
      split
      next => exact .inr (.inr rfl)
      next left =>
        simp only [Bool.or_eq_true, decide_eq_true_eq, not_or] at left
        exact .inr (allocated.resolve_left left.1)
  | terminateAccepted p _ state =>
      rw [applyTerminateAccepted_early state]
      split
      next => exact .inr (.inr rfl)
      next left =>
        simp only [Bool.or_eq_true, decide_eq_true_eq, not_or] at left
        exact .inr (allocated.resolve_left left.1)
  | terminateEscalated p _ state =>
      rw [applyTerminateAccepted_late state]
      exact allocated
  | preparationTimeout _ _ state =>
      unfold applyPreparationTimeout
      split
      · exact .inr (.inr rfl)
      · exact .inr (kept _ state (by simp))
  | runningTimeout _ _ state => exact .inr (kept _ state (by simp))
  | stoppingTimeout => exact allocated
  | cooperativeStopTimeout => exact allocated
  | finalizingTimeout _ _ state =>
      simp only [applyFinalizingExecutionTimeout]
      repeat' split
      all_goals exact allocated
  | exitConfirmationTimeout => exact allocated
  | workerCompleted p _ state =>
      unfold applyWorkerCompleted
      rcases state with h | h <;> split <;> exact .inr (kept _ h (by simp))
  | workerFailed p _ state =>
      unfold applyWorkerFailed
      rcases state with h | h | h <;> split <;> exact .inr (kept _ h (by simp))
  | processExitConfirmed p _ state =>
      unfold applyProcessExitConfirmed
      repeat' split
      case isTrue.isTrue => exact allocated
      all_goals exact .inr (.inr rfl)
  | sessionRetainRequested => exact allocated
  | sessionRetained => exact allocated
  | finalizationCompleted => exact allocated
  | finalizationFailed =>
      unfold applyFinalizationFailed
      split <;> exact allocated
  | terminalOutcomeCommitted p _ state => exact .inr (kept _ state (by simp))
  | resourcesReleased => exact .inr (.inl (by simp))
  | cleanupStatusRecorded => exact allocated
  | lateWorkerEvent => exact allocated

theorem Run.allocated (run : Run lib (initialSnapshot job session) history s) : Allocated s :=
  run.keeps Allocated (.inl rfl) fun _ _ _ allocated accepted => accepted.moves.allocated allocated

theorem isUnresolved_eq_false : isUnresolved s = false ↔
    s.state.isTerminal = true ∧ s.resourceStatus ≠ .committed ∧ s.cleanupStatus ≠ .pending := by
  simp [isUnresolved, and_assoc]

theorem Run.exited (run : Run lib (initialSnapshot job session) history s) (resolved : isUnresolved s = false) :
    s.processExitConfirmed = true ∧ s.processPresence = .absent ∧ s.pendingWorkerEventAck = false := by
  obtain ⟨terminal, notCommitted, -⟩ := isUnresolved_eq_false.1 resolved
  have left : s.state ≠ .admitted := by
    intro admitted
    rw [admitted] at terminal
    cases terminal
  have inv := run.invariant (run.born left).2
  have confirmed : s.processExitConfirmed = true := by
    rcases run.allocated.resolve_left left with held | confirmed
    · have closed := (hasValidSnapshotEnums_iff.1 inv.enums).2.2.1
      have released : s.resourceStatus = .released := by
        cases status : s.resourceStatus <;> simp_all
      exact (hasValidResourceFacts_iff.1 inv.resources).2.2 released
    · exact confirmed
  have exit := (hasValidExitFacts_iff.1 inv.exit).1 confirmed
  exact ⟨confirmed, exit.1, exit.2.1⟩

theorem Audit.of_resolved (audit : Audit s type payload u) (confirmed : s.processExitConfirmed = true)
    (resolved : isUnresolved s = false) : u.1 = s := by
  obtain ⟨-, notCommitted, recorded⟩ := isUnresolved_eq_false.1 resolved
  cases audit with
  | exitTimeout _ unconfirmed => simp [confirmed] at unconfirmed
  | firstExit p unconfirmed => simp [confirmed] at unconfirmed
  | sameExit => rfl
  | resourcesReleased p _ _ _ status =>
      have released := status.resolve_left notCommitted
      ext <;> simp [released]
  | cleanupStatusRecorded p status =>
      have same := status.resolve_left recorded
      ext <;> simp [same]
  | lateWorkerEvent => rfl

theorem Run.resolved_accepts (run : Run lib (initialSnapshot job session) history s) (resolved : isUnresolved s = false)
    (accepted : Accepts lib s proposal t) : t = s := by
  have audit := accepted.moves.audit (isUnresolved_eq_false.1 resolved).1 run.unborn
  exact audit.of_resolved (run.exited resolved).1 resolved

theorem Run.closed_iff (run : Run lib (initialSnapshot job session) history s) :
    isClosed s = true ↔ isUnresolved s = false := by
  constructor
  · intro closed
    simp only [isClosed, Bool.and_eq_true, Bool.not_eq_true'] at closed
    exact closed.1
  · intro resolved
    simp [isClosed, resolved, run.exited resolved]

/-- A closed Job is over: it holds nothing, and what it still accepts changes nothing. -/
theorem closed_stays (lib : Libraries) (job session : Uuid) (history : List (Snapshot × PreEnvelopeProposal))
    (s : Snapshot) (run : Run lib (initialSnapshot job session) history s) :
    (isClosed s = true ↔ isUnresolved s = false) ∧
      (isClosed s = true → s.processExitConfirmed = true ∧ s.processPresence = .absent ∧
        s.pendingWorkerEventAck = false ∧ s.resourceStatus ≠ .committed ∧
        (∀ proposal, Proposed lib s proposal → (apply lib s proposal).snapshot = s) ∧
        ∀ later t, Run lib s later t → t = s) := by
  refine ⟨run.closed_iff, fun closed => ?_⟩
  have resolved := run.closed_iff.1 closed
  obtain ⟨confirmed, absent, noAck⟩ := run.exited resolved
  refine ⟨confirmed, absent, noAck, (isUnresolved_eq_false.1 resolved).2.1, ?_, ?_⟩
  · intro proposal proposed
    exact run.resolved_accepts resolved ⟨proposed, rfl⟩
  · intro later t continued
    induction continued with
    | nil => rfl
    | snoc before accepted ih =>
        subst ih
        exact run.resolved_accepts resolved accepted

end Closed

def sampleClosed : List PreEnvelopeProposal :=
  sampleSuccess ++ [sampleProposal .processExitConfirmed (.processExitConfirmed ⟨.cooperative, ⟨text "operation-1"⟩⟩),
    sampleProposal .resourcesReleased (.resourcesReleased ⟨⟨text "allocation-1"⟩,
      ⟨text "44136fa355b3678a1146ad16f7e8649e94fb4fc21fe77e8310c060f61caaff8a"⟩⟩),
    sampleProposal .cleanupStatusRecorded (.cleanupStatus ⟨.completed⟩)]

theorem closed_stays_success : ∃ history s,
    runProposals sampleLibraries (initialSnapshot sampleJob sampleJob) sampleClosed = some (history, s) ∧
      isClosed s = true ∧ s.processPresence = .absent ∧ ∀ later t, Run sampleLibraries s later t → t = s := by
  have evaluated : (runProposals sampleLibraries (initialSnapshot sampleJob sampleJob) sampleClosed).map
      (fun run => isClosed run.2) = some true := by decide +kernel
  obtain ⟨⟨history, s⟩, ran, closed⟩ := Option.map_eq_some_iff.1 evaluated
  obtain ⟨-, facts⟩ := closed_stays sampleLibraries sampleJob sampleJob history s (runProposals_run ran)
  obtain ⟨-, absent, -, -, -, stays⟩ := facts closed
  exact ⟨history, s, ran, closed, absent, stays⟩

section Cleanup

variable {lib : Libraries} {job session : Uuid} {s t : Snapshot} {proposal : PreEnvelopeProposal} {type : EventType}
  {payload : EventPayload} {u : Update} {history later : List (Snapshot × PreEnvelopeProposal)}

inductive Cleans (s : Snapshot) (payload : EventPayload) (t : Snapshot) : Prop
  | kept : t.cleanupStatus = s.cleanupStatus →
      (∀ generation, payload ≠ .timeoutExpired ⟨.processExitConfirmation, generation⟩) → Cleans s payload t
  | failed : s.state = .finalizing → s.finalizationStatus = .pending → t.finalizationStatus = .failed →
      payload = .empty → Cleans s payload t
  | recorded (p : CleanupStatusPayload) : s.state.isTerminal = true →
      s.cleanupStatus = .pending ∨ s.cleanupStatus = p.status → payload = .cleanupStatus p →
      t.cleanupStatus = p.status → Cleans s payload t
  | timedOut (generation : UInt64) : s.state.isTerminal = true →
      payload = .timeoutExpired ⟨.processExitConfirmation, generation⟩ → t.cleanupStatus = .incomplete →
      Cleans s payload t

theorem Moves.cleans (moves : Moves s type payload u) (unborn : s.entityExists = false → s.cleanupStatus = .pending) :
    Cleans s payload u.1 := by
  cases moves with
  | jobCreated p absent => exact .kept (unborn absent).symm (by simp)
  | workerLaunchObserved =>
      unfold applyWorkerLaunchObserved
      split <;> exact .kept rfl (by simp)
  | cancelAccepted =>
      unfold applyCancelAccepted
      split <;> exact .kept rfl (by simp)
  | terminateAccepted | terminateEscalated =>
      unfold applyTerminateAccepted
      split
      · exact .kept rfl (by simp)
      · split <;> exact .kept rfl (by simp)
  | preparationTimeout =>
      unfold applyPreparationTimeout
      split <;> exact .kept rfl (by simp)
  | finalizingTimeout =>
      simp only [applyFinalizingExecutionTimeout]
      repeat' split
      all_goals exact .kept rfl (by simp)
  | exitConfirmationTimeout generation _ terminal => exact .timedOut generation terminal rfl rfl
  | workerCompleted =>
      unfold applyWorkerCompleted
      split <;> exact .kept rfl (by simp)
  | workerFailed =>
      unfold applyWorkerFailed
      split <;> exact .kept rfl (by simp)
  | processExitConfirmed =>
      unfold applyProcessExitConfirmed
      repeat' split
      all_goals exact .kept rfl (by simp)
  | finalizationFailed _ state pending =>
      unfold applyFinalizationFailed
      split <;> exact .failed state pending rfl rfl
  | cleanupStatusRecorded p _ terminal status => exact .recorded p terminal status rfl rfl
  | _ => exact .kept rfl (by simp)

theorem validSnapshot_facts (valid : validSnapshot s = true) :
    hasValidSnapshotEnums s = true ∧ hasValidStateFacts s = true := by
  simp only [validSnapshot, Bool.and_eq_true] at valid
  exact ⟨valid.1.1.1.1.1.1.2, valid.2⟩

def CleanupRecorded (s : Snapshot) : Prop :=
  s.cleanupStatus = .pending ∨ s.state.isTerminal = true ∨ s.finalizationStatus = .failed

theorem Run.cleans (run : Run lib (initialSnapshot job session) history s) (accepted : Accepts lib s proposal t) :
    Cleans s proposal.payload t := by
  apply accepted.moves.cleans
  intro absent
  rw [run.reachable.unborn absent]
  rfl

theorem Run.cleanupRecorded (run : Run lib (initialSnapshot job session) history s) : CleanupRecorded s := by
  induction run with
  | nil => exact .inl rfl
  | @snoc history s t proposal run accepted ih =>
      have run : Run lib (initialSnapshot job session) history s := run
      have stays (terminal : s.state.isTerminal = true) : CleanupRecorded t := by
        have audit := accepted.moves.audit terminal run.unborn
        exact .inr (.inl (audit.state.symm ▸ terminal))
      cases run.cleans accepted with
      | failed _ _ failed => exact .inr (.inr failed)
      | recorded p terminal => exact stays terminal
      | timedOut generation terminal => exact stays terminal
      | kept same =>
          rcases ih with pending | terminal | failed
          · exact .inl (same.trans pending)
          · exact stays terminal
          · cases accepted.moves.progress run.unborn with
            | kept _ status => exact .inr (.inr (status.trans failed))
            | begun early =>
                have facts := (validSnapshot_facts accepted.transition.valid).2
                have notStarted := (hasValidStateFacts_iff.1 facts).2.1 early
                simp [failed] at notStarted
            | completed _ pending => simp [failed] at pending
            | failed status => exact .inr (.inr status)
            | ended _ terminal => exact .inr (.inl terminal)

def Regresses (step : Snapshot × PreEnvelopeProposal) : Prop :=
  step.1.cleanupStatus = .completed ∧
    ∃ generation, step.2.payload = .timeoutExpired ⟨.processExitConfirmation, generation⟩

theorem Run.cleanup_step (run : Run lib (initialSnapshot job session) history s) (recorded : s.cleanupStatus ≠ .pending)
    (accepted : Accepts lib s proposal t) :
    t.cleanupStatus = s.cleanupStatus ∧ ¬Regresses (s, proposal) ∨
      t.cleanupStatus = .incomplete ∧ Regresses (s, proposal) := by
  cases run.cleans accepted with
  | kept same other => exact .inl ⟨same, fun regresses => regresses.2.elim other⟩
  | failed finalizing pending =>
      rcases run.cleanupRecorded with none | terminal | failed
      · exact absurd none recorded
      · simp [finalizing, JobState.isTerminal] at terminal
      · simp [pending] at failed
  | recorded p _ status body written =>
      refine .inl ⟨written.trans (status.resolve_left recorded).symm, ?_⟩
      rintro ⟨-, generation, timeout⟩
      simp [body] at timeout
  | timedOut generation _ timeout incomplete =>
      by_cases completed : s.cleanupStatus = .completed
      · exact .inr ⟨incomplete, completed, generation, timeout⟩
      · have enums := (validSnapshot_facts accepted.transition.valid).1
        have closed := (hasValidSnapshotEnums_iff.1 enums).2.2.2.2.2.2.2
        have already : s.cleanupStatus = .incomplete := by
          cases status : s.cleanupStatus <;> simp_all
        exact .inl ⟨incomplete.trans already.symm, fun regresses => completed regresses.1⟩

theorem Run.cleanup_course (reached : Run lib (initialSnapshot job session) history s)
    (recorded : s.cleanupStatus ≠ .pending) (continued : Run lib s later t) :
    t.cleanupStatus = s.cleanupStatus ∧ (∀ step ∈ later, ¬Regresses step) ∨
      s.cleanupStatus = .completed ∧ t.cleanupStatus = .incomplete ∧ ∃ step ∈ later, Regresses step := by
  induction continued with
  | nil => exact .inl ⟨rfl, by simp⟩
  | @snoc later s' t proposal run accepted ih =>
      have along : Run lib (initialSnapshot job session) (history ++ later) s' := reached.trans run
      have stillRecorded : s'.cleanupStatus ≠ .pending := by
        rcases ih with ⟨same, -⟩ | ⟨-, incomplete, -⟩
        · rw [same]
          exact recorded
        · simp [incomplete]
      rcases along.cleanup_step stillRecorded accepted with ⟨same, calm⟩ | ⟨incomplete, regresses⟩
      · rcases ih with ⟨before, all⟩ | ⟨completed, before, step, member, regresses⟩
        · exact .inl ⟨same.trans before, forall_mem_snoc all calm⟩
        · exact .inr ⟨completed, same.trans before, step, List.mem_append_left _ member, regresses⟩
      · rcases ih with ⟨before, -⟩ | ⟨completed, -⟩
        · exact .inr ⟨before ▸ regresses.1, incomplete, _, by simp, regresses⟩
        · exact .inr ⟨completed, incomplete, _, by simp, regresses⟩

theorem Run.cleanup_same_iff (reached : Run lib (initialSnapshot job session) history s)
    (recorded : s.cleanupStatus ≠ .pending) (continued : Run lib s later t) :
    t.cleanupStatus = s.cleanupStatus ↔ ∀ step ∈ later, ¬Regresses step := by
  rcases reached.cleanup_course recorded continued with ⟨same, calm⟩ | ⟨completed, incomplete, step, member, regresses⟩
  · exact iff_of_true same calm
  · refine iff_of_false ?_ fun calm => calm step member regresses
    simp [completed, incomplete]

/-- A recorded cleanup status stays exactly where no exit confirmation times out after a completed cleanup. -/
theorem cleanup_kept_iff (lib : Libraries) (job session : Uuid) (history later : List (Snapshot × PreEnvelopeProposal))
    (s t : Snapshot) (reached : Run lib (initialSnapshot job session) history s)
    (recorded : s.cleanupStatus = .completed ∨ s.cleanupStatus = .incomplete) (continued : Run lib s later t) :
    t.cleanupStatus = s.cleanupStatus ↔ ∀ step ∈ later, ¬Regresses step := by
  refine reached.cleanup_same_iff ?_ continued
  rcases recorded with status | status <;> simp [status]

end Cleanup

def sampleCleaned : List PreEnvelopeProposal :=
  sampleSuccess ++ [sampleProposal .cleanupStatusRecorded (.cleanupStatus ⟨.completed⟩)]

def sampleExitTimeout : PreEnvelopeProposal :=
  sampleProposal .timeoutExpired (.timeoutExpired ⟨.processExitConfirmation, 1⟩)

theorem cleanup_regresses :
    (runProposals sampleLibraries (initialSnapshot sampleJob sampleJob) sampleCleaned).map
        (fun run => run.2.cleanupStatus) = some .completed ∧
      (runProposals sampleLibraries (initialSnapshot sampleJob sampleJob) (sampleCleaned ++ [sampleExitTimeout])).map
        (fun run => run.2.cleanupStatus) = some .incomplete := by decide +kernel

theorem cleanup_kept_iff_late : ∃ history s t later,
    runProposals sampleLibraries (initialSnapshot sampleJob sampleJob) sampleCleaned = some (history, s) ∧
      runProposals sampleLibraries s [sampleProposal .processExitConfirmed
        (.processExitConfirmed ⟨.cooperative, ⟨text "operation-1"⟩⟩)] = some (later, t) ∧
      s.cleanupStatus = .completed ∧ t.cleanupStatus = s.cleanupStatus := by
  have evaluated : (runProposals sampleLibraries (initialSnapshot sampleJob sampleJob) sampleCleaned).bind
      (fun run => (runProposals sampleLibraries run.2 [sampleProposal .processExitConfirmed
        (.processExitConfirmed ⟨.cooperative, ⟨text "operation-1"⟩⟩)]).map fun next =>
          (run.2.cleanupStatus, next.1.map fun step => step.2.payload)) =
      some (.completed, [.processExitConfirmed ⟨.cooperative, ⟨text "operation-1"⟩⟩]) := by decide +kernel
  obtain ⟨⟨history, s⟩, ran, rest⟩ := Option.bind_eq_some_iff.1 evaluated
  obtain ⟨⟨later, t⟩, next, seen⟩ := Option.map_eq_some_iff.1 rest
  obtain ⟨completed, payloads⟩ := Prod.mk.inj seen
  refine ⟨history, s, t, later, ran, next, completed, ?_⟩
  apply (cleanup_kept_iff sampleLibraries sampleJob sampleJob history later s t (runProposals_run ran)
    (.inl completed) (runProposals_run next)).2
  rintro step member ⟨-, generation, timeout⟩
  have listed : step.2.payload ∈ later.map fun step => step.2.payload := List.mem_map_of_mem member
  rw [payloads, timeout] at listed
  simp at listed

section Repeated

variable {lib : Libraries} {job session : Uuid} {s t : Snapshot} {proposal : PreEnvelopeProposal} {type : EventType}
  {payload : EventPayload} {u : Update} {history later : List (Snapshot × PreEnvelopeProposal)}

def Repeats (lib : Libraries) (s : Snapshot) (type : EventType) (payload : EventPayload) : Prop :=
  decideEvent lib s ⟨1, s.jobId, type, payload⟩ = .ok ⟨1, s.jobId, type, payload⟩ ∧
    apply lib s ⟨1, s.jobId, type, payload⟩ = ⟨s, [], none⟩

theorem repeats_iff (inv : Invariant s) (present : s.entityExists = true) (notCreated : type ≠ .jobCreated)
    (valid : validInternalPayload lib type payload s.jobId = true) :
    Repeats lib s type payload ↔ decideByType s ⟨1, s.jobId, type, payload⟩ = .ok ⟨1, s.jobId, type, payload⟩ ∧
      applyAuthorizedEvent s type payload = some (s, []) := by
  have canonical := (validSnapshot_identity inv.valid).1
  have decided : decideEvent lib s ⟨1, s.jobId, type, payload⟩ = .ok ⟨1, s.jobId, type, payload⟩ ↔
      decideByType s ⟨1, s.jobId, type, payload⟩ = .ok ⟨1, s.jobId, type, payload⟩ := by
    rw [decideEvent_eq_ok_iff]
    simp [inv.valid, canonical, valid, present, notCreated]
  constructor
  · rintro ⟨accepted, applied⟩
    refine ⟨decided.1 accepted, ?_⟩
    cases authorized : applyAuthorizedEvent s type payload with
    | none => simp [apply, inv.valid, PreEnvelopeProposal.event, accepted, authorized] at applied
    | some u =>
        rw [apply_of_authorized accepted authorized] at applied
        simp only [ApplyResult.mk.injEq, and_true] at applied
        rw [← applied.1, ← applied.2]
  · rintro ⟨accepted, authorized⟩
    have accepted := decided.2 accepted
    exact ⟨accepted, apply_of_authorized (u := (s, [])) accepted authorized⟩

theorem Run.present (run : Run lib (initialSnapshot job session) history s) (late : s.state.isEarly = false) :
    s.entityExists = true ∧ Invariant s := by
  have left : s.state ≠ .admitted := by
    intro admitted
    simp [admitted, JobState.isEarly] at late
  obtain ⟨present, moved⟩ := run.born left
  exact ⟨present, run.invariant moved⟩

def Replaces (s : Snapshot) (payload : EventPayload) : Prop :=
  s.state = .finalizing ∧ s.latchedReason = none ∧ ∃ generation, payload = .timeoutExpired ⟨.execution, generation⟩

def storedMode (s : Snapshot) (p : ProcessExitConfirmedPayload) : CompletionMode :=
  match s.state with
  | .preparing | .running => .processAlreadyExited
  | .stopping => s.completionMode
  | _ => p.completionMode

theorem repeats_exit_iff {p : ProcessExitConfirmedPayload} (inv : Invariant s) (present : s.entityExists = true)
    (valid : validInternalPayload lib .processExitConfirmed (.processExitConfirmed p) s.jobId = true)
    (state : s.state = .finalizing ∨ s.state.isTerminal = true) (confirmed : s.processExitConfirmed = true)
    (launch : s.launchOperationId = some p.launchOperationId) :
    Repeats lib s .processExitConfirmed (.processExitConfirmed p) ↔ s.completionMode = p.completionMode := by
  have left : s.state ≠ .admitted := by
    rintro admitted
    rcases state with h | h <;> simp [admitted, JobState.isTerminal] at h
  rw [repeats_iff inv present (by decide) valid]
  simp [decideByType, decideProcessExitConfirmed, left, launch, confirmed, state, acceptEvent, applyAuthorizedEvent,
    applyProcessExitConfirmed]

structure ExitStored (s : Snapshot) (p : ProcessExitConfirmedPayload) (mode : CompletionMode) : Prop where
  late : s.state.isEarly = false
  confirmed : s.processExitConfirmed = true
  launch : s.launchOperationId = some p.launchOperationId
  mode : s.completionMode = mode

theorem Moves.firstExit {p : ProcessExitConfirmedPayload}
    (moves : Moves s .processExitConfirmed (.processExitConfirmed p) u) (closed : s.state ≠ .invalid) :
    ExitStored u.1 p (storedMode s p) := by
  cases moves with
  | processExitConfirmed _ _ left launch mode =>
      unfold applyProcessExitConfirmed
      split
      next state =>
        simp only [Bool.or_eq_true, decide_eq_true_eq] at state
        have own : storedMode s p = p.completionMode := by
          rcases state with finalizing | terminal
          · simp [storedMode, finalizing]
          · cases at_ : s.state <;> simp [at_, JobState.isTerminal] at terminal <;> simp [storedMode, at_]
        have late : s.state.isEarly = false := by
          rcases state with finalizing | terminal
          · rw [finalizing]
            rfl
          · cases at_ : s.state <;> simp [at_, JobState.isTerminal] at terminal <;> rfl
        rw [own]
        split
        next confirmed => exact ⟨late, confirmed, launch, mode state confirmed⟩
        next => exact ⟨late, rfl, launch, rfl⟩
      next other =>
        split
        next preparing => exact ⟨rfl, rfl, launch, by simp [storedMode, preparing, beginFinalizing]⟩
        next =>
          split
          next running => exact ⟨rfl, rfl, launch, by simp [storedMode, running, beginFinalizing]⟩
          next =>
            split
            next stopping => exact ⟨rfl, rfl, launch, by simp [storedMode, stopping, beginFinalizing, confirmExit, clearPendingWorkerAck]⟩
            next =>
              cases at_ : s.state <;> simp_all [JobState.isTerminal]

theorem Moves.afterExit {p : ProcessExitConfirmedPayload} {mode : CompletionMode} (moves : Moves s type payload u)
    (stored : ExitStored s p mode) (present : s.entityExists = true) (caused : Caused s) :
    Replaces s payload ∧ ExitStored u.1 p .processAlreadyExited ∨ ¬Replaces s payload ∧ ExitStored u.1 p mode := by
  have not (state : JobState) (at_ : s.state = state) (early : state.isEarly = true) : False := by
    have late := stored.late
    rw [at_, early] at late
    cases late
  cases moves with
  | jobCreated p absent => simp [present] at absent
  | resourcesCommitted p _ state => exact (not _ state rfl).elim
  | workerLaunchIntent p _ state => exact (not _ state rfl).elim
  | workerLaunchObserved p _ state => exact (not _ state rfl).elim
  | workerRunning p _ state => exact (not _ state rfl).elim
  | cancelAccepted p _ state => rcases state with h | h | h <;> exact (not _ h rfl).elim
  | terminateAccepted p _ state => rcases state with h | h | h <;> exact (not _ h rfl).elim
  | terminateEscalated p _ _ unconfirmed => simp [stored.confirmed] at unconfirmed
  | preparationTimeout _ _ state => exact (not _ state rfl).elim
  | runningTimeout _ _ state => exact (not _ state rfl).elim
  | stoppingTimeout _ _ state => exact (not _ state rfl).elim
  | cooperativeStopTimeout _ _ state => exact (not _ state rfl).elim
  | finalizingTimeout generation _ state =>
      rcases caused.finalizing state with ⟨latched, none⟩ | ⟨none, candidate, -⟩
      · right
        refine ⟨fun replaces => by simp [replaces.2.1] at latched, ?_⟩
        simpa [applyFinalizingExecutionTimeout, none, stored.confirmed] using stored
      · left
        refine ⟨⟨state, none, generation, rfl⟩, ?_⟩
        simp only [applyFinalizingExecutionTimeout, none, candidate, stored.confirmed, Option.isNone_none, Bool.and_true,
          if_true]
        exact ⟨stored.late, rfl, stored.launch, rfl⟩
  | exitConfirmationTimeout _ _ _ unconfirmed => simp [stored.confirmed] at unconfirmed
  | workerCompleted p _ state => rcases state with h | h <;> exact (not _ h rfl).elim
  | workerFailed p _ state => rcases state with h | h | h <;> exact (not _ h rfl).elim
  | processExitConfirmed q _ left =>
      right
      refine ⟨by simp [Replaces], ?_⟩
      unfold applyProcessExitConfirmed
      split
      next => simpa [stored.confirmed] using stored
      next other =>
        have late := stored.late
        cases at_ : s.state <;> simp_all [JobState.isTerminal, JobState.isEarly, Caused]
  | sessionRetainRequested => exact .inr ⟨by simp [Replaces], { stored with }⟩
  | sessionRetained => exact .inr ⟨by simp [Replaces], { stored with }⟩
  | finalizationCompleted => exact .inr ⟨by simp [Replaces], { stored with }⟩
  | finalizationFailed =>
      right
      refine ⟨by simp [Replaces], ?_⟩
      unfold applyFinalizationFailed
      split <;> exact { stored with }
  | terminalOutcomeCommitted q =>
      right
      refine ⟨by simp [Replaces], { stored with late := ?_ }⟩
      obtain ⟨outcome⟩ := q
      cases outcome <;> rfl
  | resourcesReleased => exact .inr ⟨by simp [Replaces], { stored with }⟩
  | cleanupStatusRecorded => exact .inr ⟨by simp [Replaces], { stored with }⟩
  | lateWorkerEvent => exact .inr ⟨by simp [Replaces], stored⟩

theorem Run.exit_course {p : ProcessExitConfirmedPayload} {mode : CompletionMode}
    (reached : Run lib (initialSnapshot job session) history s) (stored : ExitStored s p mode)
    (continued : Run lib s later t) :
    (∃ step ∈ later, Replaces step.1 step.2.payload) ∧ ExitStored t p .processAlreadyExited ∨
      (∀ step ∈ later, ¬Replaces step.1 step.2.payload) ∧ ExitStored t p mode := by
  induction continued with
  | nil => exact .inr ⟨by simp, stored⟩
  | @snoc later s' t proposal run accepted ih =>
      have along : Run lib (initialSnapshot job session) (history ++ later) s' := reached.trans run
      rcases ih with ⟨⟨step, member, replaces⟩, stored⟩ | ⟨calm, stored⟩
      · have earlier : ∃ step ∈ later ++ [(s', proposal)], Replaces step.1 step.2.payload :=
          ⟨step, List.mem_append_left _ member, replaces⟩
        rcases accepted.moves.afterExit stored (along.present stored.late).1 along.caused with ⟨-, next⟩ | ⟨-, next⟩
        · exact .inl ⟨earlier, next⟩
        · exact .inl ⟨earlier, next⟩
      · rcases accepted.moves.afterExit stored (along.present stored.late).1 along.caused with
          ⟨replaces, next⟩ | ⟨other, next⟩
        · exact .inl ⟨⟨(s', proposal), by simp, replaces⟩, next⟩
        · exact .inr ⟨forall_mem_snoc calm other, next⟩

structure ReleaseStored (s : Snapshot) (p : ResourcesReleasedPayload) : Prop where
  terminal : s.state.isTerminal = true
  confirmed : s.processExitConfirmed = true
  allocation : s.allocationId = some p.allocationId
  digest : s.allocationDigest = some p.allocationDigest
  released : s.resourceStatus = .released

theorem Moves.released {p : ResourcesReleasedPayload} (moves : Moves s .resourcesReleased (.resourcesReleased p) u) :
    ReleaseStored u.1 p := by
  cases moves with
  | resourcesReleased _ _ terminal confirmed id digest => exact ⟨terminal, confirmed, id, digest, rfl⟩

theorem Audit.keepsRelease {p : ResourcesReleasedPayload} (audit : Audit s type payload u) (stored : ReleaseStored s p) :
    ReleaseStored u.1 p := by
  cases audit with
  | exitTimeout _ unconfirmed => simp [stored.confirmed] at unconfirmed
  | firstExit _ unconfirmed => simp [stored.confirmed] at unconfirmed
  | sameExit => exact stored
  | resourcesReleased => exact { stored with released := rfl }
  | cleanupStatusRecorded => exact { stored with }
  | lateWorkerEvent => exact stored

theorem Run.release_kept {p : ResourcesReleasedPayload} (reached : Run lib (initialSnapshot job session) history s)
    (stored : ReleaseStored s p) (continued : Run lib s later t) : ReleaseStored t p := by
  induction continued with
  | nil => exact stored
  | @snoc later s' t proposal run accepted ih =>
      have along : Run lib (initialSnapshot job session) (history ++ later) s' := reached.trans run
      exact (accepted.moves.audit ih.terminal along.unborn).keepsRelease ih

theorem repeats_release {p : ResourcesReleasedPayload} (inv : Invariant s) (present : s.entityExists = true)
    (valid : validInternalPayload lib .resourcesReleased (.resourcesReleased p) s.jobId = true)
    (stored : ReleaseStored s p) : Repeats lib s .resourcesReleased (.resourcesReleased p) := by
  rw [repeats_iff inv present (by decide) valid]
  constructor
  · simp [decideByType, decideResourcesReleased, stored.terminal, stored.confirmed, stored.allocation, stored.digest,
      stored.released, acceptEvent]
  · rw [applyAuthorizedEvent, ← stored.released]

theorem repeats_cleanup_iff {p : CleanupStatusPayload} (inv : Invariant s) (present : s.entityExists = true)
    (valid : validInternalPayload lib .cleanupStatusRecorded (.cleanupStatus p) s.jobId = true)
    (terminal : s.state.isTerminal = true) :
    Repeats lib s .cleanupStatusRecorded (.cleanupStatus p) ↔ s.cleanupStatus = p.status := by
  rw [repeats_iff inv present (by decide) valid]
  constructor
  · rintro ⟨-, applied⟩
    have same := congrArg (fun u => u.map fun u => u.1.cleanupStatus) applied
    simpa [applyAuthorizedEvent, eq_comm] using same
  · intro same
    constructor
    · simp [decideByType, decideCleanupStatusRecorded, terminal, same, acceptEvent]
    · rw [applyAuthorizedEvent, ← same]

theorem Moves.recordsCleanup {p : CleanupStatusPayload} (moves : Moves s .cleanupStatusRecorded (.cleanupStatus p) u) :
    u.1.cleanupStatus = p.status := by
  cases moves
  rfl

theorem Run.jobId (run : Run lib s later t) : t.jobId = s.jobId :=
  run.keeps (fun t => t.jobId = s.jobId) rfl fun _ _ _ same accepted => accepted.moves.identity.2.trans same

def ModeKept (s : Snapshot) (p : ProcessExitConfirmedPayload) (later : List (Snapshot × PreEnvelopeProposal)) : Prop :=
  ((∃ step ∈ later, Replaces step.1 step.2.payload) → p.completionMode = .processAlreadyExited) ∧
    ((∀ step ∈ later, ¬Replaces step.1 step.2.payload) → p.completionMode = storedMode s p)

/-- A fact that was accepted once is accepted again without a change exactly where its own record still stands: a
confirmed exit under the mode it was reported with, a cleanup status that no timeout took back. -/
theorem duplicate_repeats_iff (lib : Libraries) (job session : Uuid)
    (before later : List (Snapshot × PreEnvelopeProposal)) (x s : Snapshot) (proposal : PreEnvelopeProposal)
    (run : Run lib (initialSnapshot job session) (before ++ (x, proposal) :: later) s) :
    (∀ p, proposal.eventType = .processExitConfirmed → proposal.payload = .processExitConfirmed p →
      s.state = .finalizing ∨ s.state.isTerminal = true →
        (Repeats lib s .processExitConfirmed (.processExitConfirmed p) ↔ ModeKept x p later)) ∧
      (∀ p, proposal.eventType = .resourcesReleased → proposal.payload = .resourcesReleased p →
        s.state.isTerminal = true → Repeats lib s .resourcesReleased (.resourcesReleased p)) ∧
      ∀ p, proposal.eventType = .cleanupStatusRecorded → proposal.payload = .cleanupStatus p →
        s.state.isTerminal = true →
          (Repeats lib s .cleanupStatusRecorded (.cleanupStatus p) ↔ ∀ step ∈ later, ¬Regresses step) := by
  obtain ⟨first, t, accepted, continued⟩ := Trace.at_step run
  have first : Run lib (initialSnapshot job session) before x := first
  have continued : Run lib t later s := continued
  have reached : Run lib (initialSnapshot job session) (before ++ [(x, proposal)]) t := first.snoc accepted
  have sameJob : s.jobId = x.jobId := continued.jobId.trans accepted.moves.identity.2
  have valid := accepted.transition.payload
  rw [← sameJob] at valid
  have moves := accepted.moves
  refine ⟨?_, ?_, ?_⟩
  · intro p type body state
    rw [type, body] at valid moves
    have closed : x.state ≠ .invalid := by
      have enums := (validSnapshot_facts accepted.transition.valid).1
      exact (hasValidSnapshotEnums_iff.1 enums).1
    rcases reached.exit_course (moves.firstExit closed) continued with ⟨replaced, stored⟩ | ⟨calm, stored⟩
    · obtain ⟨present, inv⟩ := run.present stored.late
      rw [repeats_exit_iff inv present valid state stored.confirmed stored.launch, stored.mode, eq_comm]
      refine ⟨fun same => ⟨fun _ => same, fun calm => ?_⟩, fun kept => kept.1 replaced⟩
      obtain ⟨step, member, replaces⟩ := replaced
      exact absurd replaces (calm step member)
    · obtain ⟨present, inv⟩ := run.present stored.late
      rw [repeats_exit_iff inv present valid state stored.confirmed stored.launch, stored.mode, eq_comm]
      refine ⟨fun same => ⟨fun replaced => ?_, fun _ => same⟩, fun kept => kept.2 calm⟩
      obtain ⟨step, member, replaces⟩ := replaced
      exact absurd replaces (calm step member)
  · intro p type body terminal
    rw [type, body] at valid moves
    have stored := reached.release_kept moves.released continued
    obtain ⟨present, inv⟩ := run.present (by cases at_ : s.state <;> simp_all [JobState.isTerminal, JobState.isEarly])
    exact repeats_release inv present valid stored
  · intro p type body terminal
    rw [type, body] at valid moves
    have written := moves.recordsCleanup
    have recorded : t.cleanupStatus ≠ .pending := by
      have known := valid
      simp [validInternalPayload, payloadMatches] at known
      rw [show t.cleanupStatus = p.status from written]
      exact known.2
    obtain ⟨present, inv⟩ := run.present (by cases at_ : s.state <;> simp_all [JobState.isTerminal, JobState.isEarly])
    rw [repeats_cleanup_iff inv present valid terminal, ← reached.cleanup_same_iff recorded continued,
      show t.cleanupStatus = p.status from written]

end Repeated

def sampleExit : PreEnvelopeProposal :=
  sampleProposal .processExitConfirmed (.processExitConfirmed ⟨.cooperative, ⟨text "operation-1"⟩⟩)

/-- An exit reported while the worker runs is kept under another mode, and a cleanup may be taken back: either fact is
then refused when it is repeated. -/
theorem duplicate_refused :
    (runProposals sampleLibraries (initialSnapshot sampleJob sampleJob) (sampleStart ++ [sampleExit])).map
        (fun run => (run.2.state, decideEvent sampleLibraries run.2 sampleExit.event)) =
      some (.finalizing, reject .invariantViolation) ∧
    (runProposals sampleLibraries (initialSnapshot sampleJob sampleJob) (sampleCleaned ++ [sampleExitTimeout])).map
        (fun run => (run.2.state, decideEvent sampleLibraries run.2
          (sampleProposal .cleanupStatusRecorded (.cleanupStatus ⟨.completed⟩)).event)) =
      some (.succeeded, reject .invariantViolation) := by decide +kernel

theorem duplicate_repeats_iff_exit : ∃ before x, ∃ s,
    runProposals sampleLibraries (initialSnapshot sampleJob sampleJob) sampleSuccess = some (before, x) ∧
      runProposals sampleLibraries x [sampleExit] = some ([(x, sampleExit)], s) ∧
      Repeats sampleLibraries s .processExitConfirmed (.processExitConfirmed ⟨.cooperative, ⟨text "operation-1"⟩⟩) := by
  have evaluated : (runProposals sampleLibraries (initialSnapshot sampleJob sampleJob) sampleSuccess).bind
      (fun run => (runProposals sampleLibraries run.2 [sampleExit]).map fun next =>
        (run.2.state, decide (next.1 = [(run.2, sampleExit)]), next.2.state)) =
      some (.succeeded, true, .succeeded) := by decide +kernel
  obtain ⟨⟨before, x⟩, ran, rest⟩ := Option.bind_eq_some_iff.1 evaluated
  obtain ⟨⟨later, s⟩, next, seen⟩ := Option.map_eq_some_iff.1 rest
  simp only [Prod.mk.injEq, decide_eq_true_eq] at seen
  obtain ⟨succeeded, rfl, state⟩ := seen
  have run : Run sampleLibraries (initialSnapshot sampleJob sampleJob) (before ++ (x, sampleExit) :: []) s :=
    (runProposals_run ran).trans (runProposals_run next)
  have kept : ModeKept x ⟨.cooperative, ⟨text "operation-1"⟩⟩ [] := by
    constructor
    · simp
    · simp [storedMode, succeeded]
  refine ⟨before, x, s, ran, next, ?_⟩
  exact ((duplicate_repeats_iff sampleLibraries sampleJob sampleJob before [] x s sampleExit run).1 _ rfl rfl
    (.inr (by simp [state, JobState.isTerminal]))).2 kept

end Sitometron.Core
