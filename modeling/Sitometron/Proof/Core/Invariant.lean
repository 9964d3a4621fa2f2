import Sitometron.Lib.JsonReference
import Sitometron.Proof.Core.Transition

/-!
# The snapshot invariant

`ValidSnapshot` alone is not inductive: confirming an exit before `finalizing` is safe only because
no acknowledgement is pending there, and a worker outcome adds one only because no exit was confirmed.
-/

namespace Sitometron.Core

def JobState.isEarly : JobState → Bool
  | .admitted | .preparing | .running | .stopping => true
  | _ => false

structure Invariant (s : Snapshot) : Prop where
  identity : hasValidSnapshotIdentity s = true
  enums : hasValidSnapshotEnums s = true
  domains : hasValidSnapshotOptionalDomains s = true
  resources : hasValidResourceFacts s = true
  exit : hasValidExitFacts s = true
  launch : hasValidLaunchFacts s = true
  pendingAck : hasValidPendingAckFacts s = true
  stateFacts : hasValidStateFacts s = true
  unconfirmed : s.state.isEarly = true → s.processExitConfirmed = false
  noPendingAck : s.state.isEarly = true → s.pendingWorkerEventAck = false

theorem Invariant.valid {s : Snapshot} (inv : Invariant s) : validSnapshot s = true := by
  simp [validSnapshot, inv.identity, inv.enums, inv.domains, inv.resources, inv.exit, inv.launch,
    inv.pendingAck, inv.stateFacts]

theorem Invariant.initial {id : Uuid} (canonical : isUuid7 id = true) :
    Invariant (initialSnapshot id id) := by
  constructor
  case identity => simp [hasValidSnapshotIdentity, initialSnapshot, canonical]
  case unconfirmed | noPendingAck => exact fun _ => rfl
  all_goals rfl

theorem hasValidExitFacts_iff {s : Snapshot} : hasValidExitFacts s = true ↔
    (s.processExitConfirmed = true → s.processPresence = .absent ∧ s.pendingWorkerEventAck = false ∧
      s.pendingWorkerId = none ∧ s.pendingWorkerEventSequence = none) ∧
    (s.completionMode = .processAlreadyExited → s.processExitConfirmed = true) := by
  cases confirmed : s.processExitConfirmed <;> cases ack : s.pendingWorkerEventAck <;>
    simp [hasValidExitFacts, confirmed, ack, Option.isSome_iff_ne_none, and_assoc]

theorem hasValidPendingAckFacts_iff {s : Snapshot} : hasValidPendingAckFacts s = true ↔
    (s.pendingWorkerEventAck = false → s.pendingWorkerId = none ∧ s.pendingWorkerEventSequence = none) ∧
    (s.pendingWorkerEventAck = true → s.pendingWorkerId.isSome ∧
      ∃ sequence, s.pendingWorkerEventSequence = some sequence ∧ sequence ≠ 0) := by
  cases ack : s.pendingWorkerEventAck <;> simp [hasValidPendingAckFacts, ack, Option.any_eq_true]

theorem hasValidStateFacts_iff {s : Snapshot} : hasValidStateFacts s = true ↔
    (s.state = .admitted → s.resourceStatus = .none ∧ s.workerLaunchStatus = .notStarted ∧
      s.processPresence = .absent ∧ s.processExitConfirmed = false) ∧
    (s.state.isEarly = true → s.finalizationStatus = .notStarted) ∧
    (s.state = .finalizing → s.finalizationStatus ≠ .notStarted) ∧
    (s.state.isTerminal = true → s.finalizationStatus = .completed ∨ s.finalizationStatus = .failed) := by
  cases state : s.state <;>
    simp [hasValidStateFacts, state, JobState.isEarly, JobState.isTerminal, and_assoc]

theorem hasValidResourceFacts_iff {s : Snapshot} : hasValidResourceFacts s = true ↔
    (s.resourceStatus = .none → s.allocationId = none ∧ s.allocationDigest = none) ∧
    (s.resourceStatus ≠ .none → s.allocationId.isSome ∧ s.allocationDigest.isSome) ∧
    (s.resourceStatus = .released → s.processExitConfirmed = true) := by
  cases status : s.resourceStatus <;> cases id : s.allocationId <;> cases digest : s.allocationDigest <;>
    simp [hasValidResourceFacts, status, id, digest]

theorem hasValidLaunchFacts_iff {s : Snapshot} : hasValidLaunchFacts s = true ↔
    (s.workerLaunchStatus = .notStarted → s.launchOperationId = none ∧ s.workerId = none) ∧
    (s.workerLaunchStatus ≠ .notStarted → s.launchOperationId.isSome ∧
      ∃ worker, s.workerId = some worker ∧ isUuid4 worker = true) := by
  cases status : s.workerLaunchStatus <;> simp [hasValidLaunchFacts, status, Option.any_eq_true]

theorem hasValidSnapshotEnums_iff {s : Snapshot} : hasValidSnapshotEnums s = true ↔
    s.state ≠ .invalid ∧ s.completionMode ≠ .invalid ∧ s.resourceStatus ≠ .invalid ∧
    s.workerLaunchStatus ≠ .invalid ∧ s.processPresence ≠ .invalid ∧
    s.sessionRetentionStatus ≠ .invalid ∧ s.finalizationStatus ≠ .invalid ∧ s.cleanupStatus ≠ .invalid := by
  simp [hasValidSnapshotEnums, and_assoc]

theorem hasValidSnapshotOptionalDomains_iff {s : Snapshot} : hasValidSnapshotOptionalDomains s = true ↔
    (∀ reason, s.latchedReason = some reason → reason ≠ .invalid ∧ reason ≠ .succeeded) ∧
    (∀ id, s.allocationId = some id → isStable id.value = true) ∧
    (∀ digest, s.allocationDigest = some digest → isDigest digest.value = true) ∧
    (∀ id, s.launchOperationId = some id → isStable id.value = true) ∧
    (∀ worker, s.workerId = some worker → isUuid4 worker = true) ∧
    (∀ worker, s.pendingWorkerId = some worker → isUuid4 worker = true) ∧
    (∀ sequence, s.pendingWorkerEventSequence = some sequence → sequence ≠ 0) := by
  simp [hasValidSnapshotOptionalDomains, Option.all_eq_true, and_assoc]

namespace Invariant

variable {s : Snapshot}

theorem latch (inv : Invariant s) (reason : TerminalOutcome)
    (latched : reason ≠ .invalid ∧ reason ≠ .succeeded) :
    Invariant { s with latchedReason := some reason } where
  __ := inv
  domains := by
    have domains := hasValidSnapshotOptionalDomains_iff.1 inv.domains
    exact hasValidSnapshotOptionalDomains_iff.2 ⟨fun r same => by cases same; exact latched, domains.2⟩

theorem setCandidate (inv : Invariant s) (candidate : Bool) :
    Invariant { s with completionCandidate := candidate } where
  __ := inv

theorem setMode (inv : Invariant s) (mode : CompletionMode) (closed : mode ≠ .invalid)
    (already : mode = .processAlreadyExited → s.processExitConfirmed = true) :
    Invariant { s with completionMode := mode } where
  __ := inv
  enums := by
    have enums := hasValidSnapshotEnums_iff.1 inv.enums
    exact hasValidSnapshotEnums_iff.2 ⟨enums.1, closed, enums.2.2⟩
  exit := hasValidExitFacts_iff.2 ⟨(hasValidExitFacts_iff.1 inv.exit).1, already⟩

theorem setCleanup (inv : Invariant s) {status : CleanupStatus} (closed : status ≠ .invalid) :
    Invariant { s with cleanupStatus := status } where
  __ := inv
  enums := by
    have enums := hasValidSnapshotEnums_iff.1 inv.enums
    simp [hasValidSnapshotEnums_iff, enums, closed]

theorem setRetention (inv : Invariant s) {status : RetentionStatus} (closed : status ≠ .invalid) :
    Invariant { s with sessionRetentionStatus := status } where
  __ := inv
  enums := by
    have enums := hasValidSnapshotEnums_iff.1 inv.enums
    simp [hasValidSnapshotEnums_iff, enums, closed]

theorem toFinalizing (inv : Invariant s) : Invariant (beginFinalizing s) where
  __ := inv
  enums := by
    have enums := hasValidSnapshotEnums_iff.1 inv.enums
    simp [hasValidSnapshotEnums_iff, beginFinalizing, enums]
  stateFacts := by simp [hasValidStateFacts_iff, beginFinalizing, JobState.isEarly, JobState.isTerminal]
  unconfirmed := by simp [beginFinalizing, JobState.isEarly]
  noPendingAck := by simp [beginFinalizing, JobState.isEarly]

theorem confirm (inv : Invariant s) (late : s.state.isEarly = false)
    (absent : s.processPresence = .absent) (ack : s.pendingWorkerEventAck = false) :
    Invariant { s with processExitConfirmed := true } where
  __ := inv
  resources := by
    have resources := hasValidResourceFacts_iff.1 inv.resources
    exact hasValidResourceFacts_iff.2 ⟨resources.1, resources.2.1, fun _ => rfl⟩
  exit := by
    have pending := (hasValidPendingAckFacts_iff.1 inv.pendingAck).1 ack
    exact hasValidExitFacts_iff.2 ⟨fun _ => ⟨absent, ack, pending⟩, fun _ => rfl⟩
  stateFacts := by
    have facts := hasValidStateFacts_iff.1 inv.stateFacts
    refine hasValidStateFacts_iff.2 ⟨fun admitted => ?_, facts.2⟩
    rw [show s.state = .admitted from admitted] at late
    cases late
  unconfirmed := fun early => absurd (late.symm.trans early) (by decide)

theorem clearAck (inv : Invariant s) : Invariant (clearPendingWorkerAck s) where
  __ := inv
  domains := by
    have domains := hasValidSnapshotOptionalDomains_iff.1 inv.domains
    exact hasValidSnapshotOptionalDomains_iff.2 ⟨domains.1, domains.2.1, domains.2.2.1, domains.2.2.2.1,
      domains.2.2.2.2.1, nofun, nofun⟩
  exit := by
    have exit := hasValidExitFacts_iff.1 inv.exit
    exact hasValidExitFacts_iff.2 ⟨fun confirmed => ⟨(exit.1 confirmed).1, rfl, rfl, rfl⟩, exit.2⟩
  pendingAck := rfl
  noPendingAck := fun _ => rfl

theorem setPresence (inv : Invariant s) (late : s.state ≠ .admitted) {presence : ProcessPresence}
    (closed : presence ≠ .invalid) (confirmed : s.processExitConfirmed = true → presence = .absent) :
    Invariant { s with processPresence := presence } where
  __ := inv
  enums := by
    have enums := hasValidSnapshotEnums_iff.1 inv.enums
    simp [hasValidSnapshotEnums_iff, enums, closed]
  exit := by
    have exit := hasValidExitFacts_iff.1 inv.exit
    exact hasValidExitFacts_iff.2 ⟨fun exited => ⟨confirmed exited, (exit.1 exited).2⟩, exit.2⟩
  stateFacts := by
    have facts := hasValidStateFacts_iff.1 inv.stateFacts
    exact hasValidStateFacts_iff.2 ⟨fun admitted => absurd admitted late, facts.2⟩

theorem exited (inv : Invariant s) (late : s.state.isEarly = false) : Invariant (confirmExit s) := by
  have notAdmitted : s.state ≠ .admitted := by
    intro admitted
    rw [admitted] at late
    cases late
  have absent := (inv.setPresence notAdmitted (by decide) fun _ => rfl).clearAck
  exact absent.confirm late rfl rfl

theorem addAck (inv : Invariant s) (late : s.state.isEarly = false)
    (unconfirmed : s.processExitConfirmed = false) {p : WorkerEventPayload}
    (worker : isUuid4 p.workerId = true) (sequence : p.eventSequence ≠ 0) :
    Invariant (addWorkerAck s p) where
  __ := inv
  domains := by
    have domains := hasValidSnapshotOptionalDomains_iff.1 inv.domains
    refine hasValidSnapshotOptionalDomains_iff.2 ⟨domains.1, domains.2.1, domains.2.2.1, domains.2.2.2.1,
      domains.2.2.2.2.1, ?_, ?_⟩
    · intro id same
      cases same
      exact worker
    · intro n same
      cases same
      exact sequence
  exit := by
    have exit := hasValidExitFacts_iff.1 inv.exit
    exact hasValidExitFacts_iff.2 ⟨fun exited => absurd (unconfirmed.symm.trans exited) (by decide), exit.2⟩
  pendingAck := hasValidPendingAckFacts_iff.2
    ⟨nofun, fun _ => ⟨rfl, p.eventSequence, rfl, sequence⟩⟩
  noPendingAck := fun early => absurd (late.symm.trans early) (by decide)

theorem exitEarly (inv : Invariant s) (early : s.state.isEarly = true)
    (absent : s.processPresence = .absent) (reason : TerminalOutcome)
    (latched : reason ≠ .invalid ∧ reason ≠ .succeeded) :
    Invariant (beginFinalizing { s with
      latchedReason := some reason
      completionMode := .processAlreadyExited
      processExitConfirmed := true }) := by
  have confirmed := (inv.latch reason latched).toFinalizing.confirm rfl absent (inv.noPendingAck early)
  exact confirmed.setMode _ nofun fun _ => rfl

theorem stop (inv : Invariant s) (early : s.state.isEarly = true) (reason : TerminalOutcome)
    (latched : reason ≠ .invalid ∧ reason ≠ .succeeded) (mode : CompletionMode)
    (requested : mode = .cooperative ∨ mode = .forced) :
    Invariant { s with latchedReason := some reason, completionMode := mode, state := .stopping } := by
  have marked : Invariant { s with latchedReason := some reason, completionMode := mode } := by
    refine (inv.latch reason latched).setMode mode ?_ ?_
    · rcases requested with rfl | rfl <;> nofun
    · rcases requested with rfl | rfl <;> nofun
  exact {
    marked with
    enums := by
      have enums := hasValidSnapshotEnums_iff.1 marked.enums
      exact hasValidSnapshotEnums_iff.2 ⟨nofun, enums.2⟩
    stateFacts := by
      have facts := hasValidStateFacts_iff.1 inv.stateFacts
      simp [hasValidStateFacts_iff, JobState.isEarly, JobState.isTerminal, facts.2.1 early]
    unconfirmed := fun _ => inv.unconfirmed early
    noPendingAck := fun _ => inv.noPendingAck early }

theorem absentBeforeLaunch (inv : Invariant s) (test : (decide (s.state = .admitted) ||
    decide (s.state = .preparing) && decide (s.processPresence = .absent)) = true) :
    s.processPresence = .absent := by
  simp only [Bool.or_eq_true, Bool.and_eq_true, decide_eq_true_eq] at test
  rcases test with admitted | preparing
  · exact ((hasValidStateFacts_iff.1 inv.stateFacts).1 admitted).2.2.1
  · exact preparing.2

theorem afterJobCreated (inv : Invariant s) {p : JobCreatedPayload}
    (same : p.sessionId = s.jobId) : Invariant (applyJobCreated s p).1 := by
  have identity := inv.identity
  simp only [hasValidSnapshotIdentity, Bool.and_eq_true, decide_eq_true_eq] at identity
  constructor
  case identity => simp [applyJobCreated, hasValidSnapshotIdentity, identity.1.1, same]
  case unconfirmed | noPendingAck => exact fun _ => rfl
  all_goals rfl

theorem afterResourcesCommitted (inv : Invariant s) (admitted : s.state = .admitted)
    {p : ResourcesCommittedPayload} (id : isStable p.allocationId.value = true)
    (digest : isDigest p.allocationDigest.value = true) :
    Invariant (applyResourcesCommitted s p).1 where
  __ := inv
  enums := by
    have enums := hasValidSnapshotEnums_iff.1 inv.enums
    simp [hasValidSnapshotEnums_iff, applyResourcesCommitted, enums]
  domains := by
    have domains := hasValidSnapshotOptionalDomains_iff.1 inv.domains
    refine hasValidSnapshotOptionalDomains_iff.2 ⟨domains.1, ?_, ?_, domains.2.2.2⟩
    · rintro _ ⟨⟩
      exact id
    · rintro _ ⟨⟩
      exact digest
  resources := rfl
  stateFacts := by
    have facts := hasValidStateFacts_iff.1 inv.stateFacts
    have notStarted := facts.2.1 (by rw [admitted]; rfl)
    simp [hasValidStateFacts_iff, applyResourcesCommitted, JobState.isTerminal, notStarted]
  unconfirmed := fun _ => inv.unconfirmed (by rw [admitted]; rfl)
  noPendingAck := fun _ => inv.noPendingAck (by rw [admitted]; rfl)

theorem afterWorkerLaunchIntent (inv : Invariant s) (preparing : s.state = .preparing)
    {p : WorkerLaunchIntentPayload} (operation : isStable p.operationId.value = true)
    (worker : isUuid4 p.workerId = true) : Invariant (applyWorkerLaunchIntent s p).1 := by
  have unconfirmed := inv.unconfirmed (by rw [preparing]; rfl)
  have unknown : Invariant { s with processPresence := .unknown } :=
    inv.setPresence (by simp [preparing]) nofun (by simp [unconfirmed])
  exact {
    unknown with
    enums := by
      have enums := hasValidSnapshotEnums_iff.1 inv.enums
      simp [hasValidSnapshotEnums_iff, applyWorkerLaunchIntent, enums]
    domains := by
      have domains := hasValidSnapshotOptionalDomains_iff.1 inv.domains
      refine hasValidSnapshotOptionalDomains_iff.2 ⟨domains.1, domains.2.1, domains.2.2.1, ?_, ?_,
        domains.2.2.2.2.2⟩
      · rintro _ ⟨⟩
        exact operation
      · rintro _ ⟨⟩
        exact worker
    launch := hasValidLaunchFacts_iff.2 ⟨nofun, fun _ => ⟨rfl, p.workerId, rfl, worker⟩⟩
    stateFacts := by
      have facts := hasValidStateFacts_iff.1 inv.stateFacts
      refine hasValidStateFacts_iff.2 ⟨fun admitted => ?_, facts.2⟩
      cases preparing.symm.trans admitted }

theorem setLaunch (inv : Invariant s) (preparing : s.state = .preparing)
    (started : s.workerLaunchStatus ≠ .notStarted) {status : LaunchStatus}
    (closed : status ≠ .invalid ∧ status ≠ .notStarted) :
    Invariant { s with workerLaunchStatus := status } where
  __ := inv
  enums := by
    have enums := hasValidSnapshotEnums_iff.1 inv.enums
    simp [hasValidSnapshotEnums_iff, enums, closed]
  launch := by
    have launch := hasValidLaunchFacts_iff.1 inv.launch
    exact hasValidLaunchFacts_iff.2 ⟨fun none => absurd none closed.2, fun _ => launch.2 started⟩
  stateFacts := by
    have facts := hasValidStateFacts_iff.1 inv.stateFacts
    refine hasValidStateFacts_iff.2 ⟨fun admitted => ?_, facts.2⟩
    cases preparing.symm.trans admitted

theorem afterWorkerLaunchObserved (inv : Invariant s) (preparing : s.state = .preparing)
    (recorded : s.workerLaunchStatus = .intentRecorded) (p : WorkerLaunchObservedPayload) :
    Invariant (applyWorkerLaunchObserved s p).1 := by
  have early : s.state.isEarly = true := by rw [preparing]; rfl
  have started : s.workerLaunchStatus ≠ .notStarted := by simp [recorded]
  have notAdmitted : s.state ≠ .admitted := by simp [preparing]
  have unconfirmed := inv.unconfirmed early
  unfold applyWorkerLaunchObserved
  split
  next =>
    have observed : Invariant { s with workerLaunchStatus := .observed } :=
      inv.setLaunch preparing started ⟨nofun, nofun⟩
    exact observed.setPresence notAdmitted nofun (by simp [unconfirmed])
  next =>
    have failed : Invariant { s with workerLaunchStatus := .failed } :=
      inv.setLaunch preparing started ⟨nofun, nofun⟩
    have absent : Invariant { s with workerLaunchStatus := .failed, processPresence := .absent } :=
      failed.setPresence notAdmitted nofun fun _ => rfl
    exact absent.exitEarly early rfl .failed ⟨nofun, nofun⟩

theorem afterWorkerRunning (inv : Invariant s) (preparing : s.state = .preparing) :
    Invariant (applyWorkerRunning s).1 := by
  have early : s.state.isEarly = true := by rw [preparing]; rfl
  have unconfirmed := inv.unconfirmed early
  have present : Invariant { s with processPresence := .present } :=
    inv.setPresence (by simp [preparing]) nofun (by simp [unconfirmed])
  exact {
    present with
    enums := by
      have enums := hasValidSnapshotEnums_iff.1 present.enums
      exact hasValidSnapshotEnums_iff.2 ⟨nofun, enums.2⟩
    stateFacts := by
      have facts := hasValidStateFacts_iff.1 inv.stateFacts
      simp [hasValidStateFacts_iff, applyWorkerRunning, JobState.isTerminal, facts.2.1 early]
    unconfirmed := fun _ => unconfirmed
    noPendingAck := fun _ => inv.noPendingAck early }

theorem afterCancelAccepted (inv : Invariant s)
    (state : s.state = .admitted ∨ s.state = .preparing ∨ s.state = .running) :
    Invariant (applyCancelAccepted s).1 := by
  have early : s.state.isEarly = true := by rcases state with h | h | h <;> rw [h] <;> rfl
  unfold applyCancelAccepted
  split
  next absent => exact inv.exitEarly early (inv.absentBeforeLaunch absent) .cancelled ⟨nofun, nofun⟩
  next => exact inv.stop early .cancelled ⟨nofun, nofun⟩ .cooperative (.inl rfl)

theorem afterTerminateAccepted (inv : Invariant s) (early : s.state.isEarly = true ∨ s.state = .finalizing) :
    Invariant (applyTerminateAccepted s).1 := by
  unfold applyTerminateAccepted
  split
  next => exact inv.setMode .forced nofun nofun
  next notLater =>
    have early : s.state.isEarly = true := early.resolve_right (by simp_all)
    split
    next absent => exact inv.exitEarly early (inv.absentBeforeLaunch absent) .terminated ⟨nofun, nofun⟩
    next => exact inv.stop early .terminated ⟨nofun, nofun⟩ .forced (.inr rfl)

theorem afterPreparationTimeout (inv : Invariant s) (preparing : s.state = .preparing) :
    Invariant (applyPreparationTimeout s).1 := by
  have early : s.state.isEarly = true := by rw [preparing]; rfl
  unfold applyPreparationTimeout
  split
  next absent => exact inv.exitEarly early absent .timedOut ⟨nofun, nofun⟩
  next => exact inv.stop early .timedOut ⟨nofun, nofun⟩ .cooperative (.inl rfl)

theorem afterFinalizingTimeout (inv : Invariant s) : Invariant (applyFinalizingExecutionTimeout s).1 := by
  have latched : Invariant { s with latchedReason := some .timedOut, completionCandidate := false } :=
    (inv.latch .timedOut ⟨nofun, nofun⟩).setCandidate false
  unfold applyFinalizingExecutionTimeout
  by_cases candidate : (s.latchedReason.isNone && s.completionCandidate) = true
  · simp only [candidate, if_true, Bool.and_true]
    split
    next confirmed => exact latched.setMode .processAlreadyExited nofun fun _ => confirmed
    next => exact latched.setMode .forced nofun nofun
  · simp only [candidate, Bool.and_false, Bool.false_eq_true, if_false]
    split
    next => exact inv
    next => exact inv.setMode .forced nofun nofun

theorem afterOutcome (inv : Invariant s) (early : s.state.isEarly = true) {p : WorkerEventPayload}
    (worker : isUuid4 p.workerId = true) (sequence : p.eventSequence ≠ 0) :
    Invariant (addWorkerAck (beginFinalizing s) p) :=
  inv.toFinalizing.addAck rfl (inv.unconfirmed early) worker sequence

theorem afterProcessExitConfirmed (inv : Invariant s) (notAdmitted : s.state ≠ .admitted)
    {p : ProcessExitConfirmedPayload} (closed : p.completionMode ≠ .invalid) :
    Invariant (applyProcessExitConfirmed s p).1 := by
  have failed : Invariant (beginFinalizing { confirmExit s with
      completionMode := .processAlreadyExited
      latchedReason := some .failed }) :=
    ((inv.latch .failed ⟨nofun, nofun⟩).toFinalizing.exited rfl).setMode _ nofun fun _ => rfl
  unfold applyProcessExitConfirmed
  split
  next late =>
    split
    next => exact inv
    next =>
      have late : s.state.isEarly = false := by
        revert late
        cases s.state <;> simp [JobState.isEarly, JobState.isTerminal]
      exact (inv.exited late).setMode _ closed fun _ => rfl
  next later =>
    split
    next => exact failed
    next =>
      split
      next => exact failed
      next =>
        split
        next => exact inv.toFinalizing.exited rfl
        next =>
          have enums := hasValidSnapshotEnums_iff.1 inv.enums
          cases state : s.state <;> simp_all [JobState.isTerminal]

theorem setFinalization (inv : Invariant s) (late : s.state.isEarly = false) {status : FinalizationStatus}
    (closed : status = .completed ∨ status = .failed) : Invariant { s with finalizationStatus := status } where
  __ := inv
  enums := by
    have enums := hasValidSnapshotEnums_iff.1 inv.enums
    rcases closed with rfl | rfl <;> simp [hasValidSnapshotEnums_iff, enums]
  stateFacts := by
    have facts := hasValidStateFacts_iff.1 inv.stateFacts
    refine hasValidStateFacts_iff.2 ⟨facts.1, fun early => ?_, fun _ => ?_, fun _ => closed⟩
    · cases late.symm.trans early
    · rcases closed with rfl | rfl <;> nofun

theorem afterFinalizationFailed (inv : Invariant s) (finalizing : s.state = .finalizing) :
    Invariant (applyFinalizationFailed s).1 := by
  have late : s.state.isEarly = false := by rw [finalizing]; rfl
  have failed : Invariant { s with finalizationStatus := .failed } := inv.setFinalization late (.inr rfl)
  have incomplete : Invariant { s with finalizationStatus := .failed, cleanupStatus := .incomplete } :=
    failed.setCleanup nofun
  unfold applyFinalizationFailed
  split
  next => exact (incomplete.latch .failed ⟨nofun, nofun⟩).setCandidate false
  next => exact incomplete

theorem afterTerminalOutcome (inv : Invariant s) (finalizing : s.state = .finalizing)
    (decided : s.finalizationStatus ≠ .pending) {p : TerminalOutcomePayload} :
    Invariant (applyTerminalOutcomeCommitted s p).1 := by
  have terminal : (jobStateForOutcome p.outcome).isTerminal = true ∧
      (jobStateForOutcome p.outcome).isEarly = false := by cases p.outcome <;> exact ⟨rfl, rfl⟩
  have enums := hasValidSnapshotEnums_iff.1 inv.enums
  have facts := hasValidStateFacts_iff.1 inv.stateFacts
  have status : s.finalizationStatus = .completed ∨ s.finalizationStatus = .failed := by
    have started := facts.2.2.1 finalizing
    revert started decided enums
    cases s.finalizationStatus <;> simp
  have kept : (if s.finalizationStatus ≠ .failed then .completed else s.finalizationStatus) =
      s.finalizationStatus := by rcases status with h | h <;> simp [h]
  unfold applyTerminalOutcomeCommitted
  rw [kept]
  refine { inv with enums := ?_, stateFacts := ?_, unconfirmed := ?_, noPendingAck := ?_ }
  · refine hasValidSnapshotEnums_iff.2 ⟨?_, enums.2⟩
    rintro invalid
    rw [show jobStateForOutcome p.outcome = .invalid from invalid] at terminal
    cases terminal.1
  · refine hasValidStateFacts_iff.2 ⟨fun admitted => ?_, fun early => ?_, fun later => ?_, fun _ => status⟩
    · rw [show jobStateForOutcome p.outcome = .admitted from admitted] at terminal
      cases terminal.1
    · cases terminal.2.symm.trans early
    · exact facts.2.2.1 finalizing
  · exact fun early => by cases terminal.2.symm.trans early
  · exact fun early => by cases terminal.2.symm.trans early

theorem afterResourcesReleased (inv : Invariant s) (terminal : s.state.isTerminal = true)
    (confirmed : s.processExitConfirmed = true) (id : s.allocationId.isSome)
    (digest : s.allocationDigest.isSome) : Invariant { s with resourceStatus := .released } where
  __ := inv
  enums := by
    have enums := hasValidSnapshotEnums_iff.1 inv.enums
    simp [hasValidSnapshotEnums_iff, enums]
  resources := hasValidResourceFacts_iff.2 ⟨nofun, fun _ => ⟨id, digest⟩, fun _ => confirmed⟩
  stateFacts := by
    have facts := hasValidStateFacts_iff.1 inv.stateFacts
    refine hasValidStateFacts_iff.2 ⟨fun admitted => ?_, facts.2⟩
    rw [show s.state = .admitted from admitted] at terminal
    cases terminal

end Invariant

theorem Transition.invariant {lib : Libraries} {s : Snapshot} {proposal : PreEnvelopeProposal} {u : Update}
    (transition : Transition lib s proposal u) (inv : Invariant s) : Invariant u.1 := by
  obtain ⟨-, -, -, payload, moves⟩ := transition
  obtain ⟨version, job, type, body⟩ := proposal
  dsimp only at payload moves
  cases moves with
  | jobCreated p _ =>
      simp [validInternalPayload, payloadMatches] at payload
      exact inv.afterJobCreated payload.2
  | resourcesCommitted p _ state =>
      simp [validInternalPayload, payloadMatches, and_assoc] at payload
      exact inv.afterResourcesCommitted state payload.1 payload.2.1
  | workerLaunchIntent p _ state =>
      simp [validInternalPayload, payloadMatches, and_assoc] at payload
      exact inv.afterWorkerLaunchIntent state payload.1 payload.2.2.2.2.2.2
  | workerLaunchObserved p _ state _ status => exact inv.afterWorkerLaunchObserved state status p
  | workerRunning p _ state => exact inv.afterWorkerRunning state
  | cancelAccepted p _ state => exact inv.afterCancelAccepted state
  | terminateAccepted p _ state =>
      exact inv.afterTerminateAccepted (.inl (by rcases state with h | h | h <;> rw [h] <;> rfl))
  | terminateEscalated p _ state =>
      exact inv.afterTerminateAccepted (state.imp_left fun h => by rw [h]; rfl)
  | preparationTimeout _ _ state => exact inv.afterPreparationTimeout state
  | runningTimeout _ _ state =>
      exact inv.stop (by rw [state]; rfl) .timedOut ⟨by simp, by simp⟩ .cooperative (.inl rfl)
  | stoppingTimeout => exact inv.setMode .forced (by simp) (by simp)
  | cooperativeStopTimeout => exact inv.setMode .forced (by simp) (by simp)
  | finalizingTimeout => exact inv.afterFinalizingTimeout
  | exitConfirmationTimeout => exact inv.setCleanup (by simp)
  | workerCompleted p _ state =>
      simp [validInternalPayload, payloadMatches] at payload
      have early : s.state.isEarly = true := by rcases state with h | h <;> rw [h] <;> rfl
      unfold applyWorkerCompleted
      split
      · exact (inv.setCandidate true).afterOutcome early payload.1 payload.2
      · exact inv.afterOutcome early payload.1 payload.2
  | workerFailed p _ state =>
      simp [validInternalPayload, payloadMatches] at payload
      have early : s.state.isEarly = true := by rcases state with h | h | h <;> rw [h] <;> rfl
      unfold applyWorkerFailed
      split
      · exact (inv.latch .failed ⟨by simp, by simp⟩).afterOutcome early payload.1 payload.2
      · exact inv.afterOutcome early payload.1 payload.2
  | processExitConfirmed p _ state =>
      simp [validInternalPayload, payloadMatches, and_assoc] at payload
      exact inv.afterProcessExitConfirmed state payload.1
  | sessionRetainRequested => exact inv.setRetention (by simp)
  | sessionRetained => exact inv.setRetention (by simp)
  | finalizationCompleted _ state => exact inv.setFinalization (by rw [state]; rfl) (.inl rfl)
  | finalizationFailed _ state => exact inv.afterFinalizationFailed state
  | terminalOutcomeCommitted p _ state status => exact inv.afterTerminalOutcome state status
  | resourcesReleased p _ state confirmed id digest =>
      exact inv.afterResourcesReleased state confirmed (by simp [id]) (by simp [digest])
  | cleanupStatusRecorded p =>
      simp [validInternalPayload, payloadMatches] at payload
      exact inv.setCleanup payload.1
  | lateWorkerEvent => exact inv

theorem Invariant.apply {s : Snapshot} (inv : Invariant s) (lib : Libraries) (proposal : PreEnvelopeProposal) :
    Invariant (apply lib s proposal).snapshot := by
  rcases apply_cases lib s proposal with ⟨-, same, -⟩ | ⟨-, transition⟩
  · rw [same]
    exact inv
  · exact transition.invariant inv

theorem Invariant.reachable {lib : Libraries} {start s : Snapshot} (inv : Invariant start)
    (run : Reachable lib start s) : Invariant s := by
  induction run with
  | start => exact inv
  | step _ _ ih => exact ih.apply lib _

theorem Reachable.unborn {lib : Libraries} {job session : Uuid} {s : Snapshot}
    (run : Reachable lib (initialSnapshot job session) s) (absent : s.entityExists = false) :
    s = initialSnapshot job session := by
  induction run with
  | start => rfl
  | @step before proposal _ _ ih =>
      rcases apply_cases lib before proposal with ⟨-, same, -⟩ | ⟨-, transition⟩
      · rw [same] at absent ⊢
        exact ih absent
      · rw [transition.moves.identity.1] at absent
        cases absent

/-- The reducer's own snapshot check is passed by every reachable Job: a command is never refused with
`invariantViolation`, and an event only where it conflicts with a recorded fact. -/
theorem Invariant.not_refused {lib : Libraries} {s : Snapshot} (inv : Invariant s) :
    (∀ c, decideCommand s c ≠ reject .invariantViolation) ∧
      ∀ e, decideEvent lib s e = reject .invariantViolation →
        s.entityExists = true ∧ decideByType s e = reject .invariantViolation := by
  constructor
  · intro c
    simp only [decideCommand, inv.valid, reject, accept, Bool.not_true, Bool.false_eq_true, if_false]
    repeat' split
    all_goals simp
  · intro e refused
    simp only [decideEvent, inv.valid, reject, Bool.not_true, Bool.false_eq_true, if_false] at refused
    split at refused
    next => simp at refused
    next =>
      split at refused
      next => simp at refused
      next present =>
        split at refused
        next => split at refused <;> simp [acceptEvent, accept] at refused
        next notCreated =>
          refine ⟨?_, refused⟩
          simpa [notCreated] using present

/-- Every snapshot along a run from the initial one is valid, and no Job is refused for it. -/
theorem reachable_validSnapshot (lib : Libraries) (id : Uuid) (canonical : isUuid7 id = true) (s : Snapshot)
    (run : Reachable lib (initialSnapshot id id) s) :
    validSnapshot s = true ∧ (∀ c, decideCommand s c ≠ reject .invariantViolation) ∧
      ∀ e, decideEvent lib s e = reject .invariantViolation →
        s.entityExists = true ∧ decideByType s e = reject .invariantViolation := by
  have inv := (Invariant.initial canonical).reachable run
  exact ⟨inv.valid, inv.not_refused⟩

def sampleLibraries : Libraries where
  json := JsonReference.library
  sha256 := fun bytes =>
    if bytes = text "\x7b\x7d" then text "44136fa355b3678a1146ad16f7e8649e94fb4fc21fe77e8310c060f61caaff8a"
    else []

def sampleJob : Uuid := ⟨text "01890000-0000-7000-8000-000000000001"⟩

def sampleCreated : PreEnvelopeProposal :=
  { jobId := sampleJob, eventType := .jobCreated, payload := .jobCreated ⟨sampleJob⟩ }

def sampleCommitted : PreEnvelopeProposal :=
  { jobId := sampleJob
    eventType := .resourcesCommitted
    payload := .resourcesCommitted ⟨⟨text "allocation-1"⟩,
      ⟨text "44136fa355b3678a1146ad16f7e8649e94fb4fc21fe77e8310c060f61caaff8a"⟩, ⟨text "schema-1"⟩, 1,
      text "\x7b\x7d"⟩ }

def sampleAdmitted : Snapshot :=
  (apply sampleLibraries (initialSnapshot sampleJob sampleJob) sampleCreated).snapshot

def samplePreparing : Snapshot := (apply sampleLibraries sampleAdmitted sampleCommitted).snapshot

theorem sampleCreated_accepted :
    decideEvent sampleLibraries (initialSnapshot sampleJob sampleJob) sampleCreated.event = .ok sampleCreated := by
  decide +kernel

theorem samplePreparing_reachable :
    Reachable sampleLibraries (initialSnapshot sampleJob sampleJob) samplePreparing := by
  have committed : decideEvent sampleLibraries sampleAdmitted sampleCommitted.event = .ok sampleCommitted := by
    decide +kernel
  exact .step (.step .start (.event _ sampleCreated_accepted)) (.event _ committed)

theorem reachable_validSnapshot_preparing :
    samplePreparing.state = .preparing ∧ validSnapshot samplePreparing = true :=
  ⟨by decide +kernel, (reachable_validSnapshot sampleLibraries sampleJob (by decide +kernel) samplePreparing
    samplePreparing_reachable).1⟩

end Sitometron.Core
