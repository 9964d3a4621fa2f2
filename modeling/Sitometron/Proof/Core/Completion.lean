import Sitometron.Proof.Core.Effects

/-!
# Every Job can be closed

From every reachable snapshot some accepted events lead to a closed one. Stage by stage: to `finalizing`, to a
terminal state, to a confirmed exit, to released resources, to a recorded cleanup.
-/

namespace Sitometron.Core

def stepEvent (lib : Libraries) (s : Snapshot) (event : InternalEvent) : Option Snapshot :=
  match decideEvent lib s event with
  | .ok proposal => some (apply lib s proposal).snapshot
  | .error _ => none

def runEvents (lib : Libraries) (s : Snapshot) (events : List InternalEvent) : Option Snapshot :=
  events.foldlM (stepEvent lib) s

def Closes (lib : Libraries) (allowed : EventType → Prop) (s : Snapshot) : Prop :=
  ∃ events t, (∀ event ∈ events, allowed event.eventType) ∧ runEvents lib s events = some t ∧ isClosed t = true

section Completion

variable {lib : Libraries} {job session : Uuid} {s : Snapshot} {allowed : EventType → Prop} {type : EventType}
  {payload : EventPayload} {u : Update} {history : List (Snapshot × PreEnvelopeProposal)}

theorem runEvents_cons {event : InternalEvent} {proposal : PreEnvelopeProposal} {rest : List InternalEvent}
    (accepted : decideEvent lib s event = .ok proposal) :
    runEvents lib s (event :: rest) = runEvents lib (apply lib s proposal).snapshot rest := by
  have stepped : stepEvent lib s event = some (apply lib s proposal).snapshot := by
    unfold stepEvent
    rw [accepted]
  rw [runEvents, List.foldlM_cons, stepped]
  rfl

theorem Closes.weaken {also : EventType → Prop} (closes : Closes lib allowed s) (wider : ∀ type, allowed type → also type) :
    Closes lib also s := by
  obtain ⟨events, t, each, ran, closed⟩ := closes
  exact ⟨events, t, fun event member => wider _ (each event member), ran, closed⟩

theorem Reachable.run (reached : Reachable lib (initialSnapshot job session) s) :
    ∃ history, Run lib (initialSnapshot job session) history s := by
  induction reached with
  | start => exact ⟨[], .nil⟩
  | step _ proposed ih =>
      obtain ⟨history, run⟩ := ih
      exact ⟨_, run.snoc ⟨proposed, rfl⟩⟩

theorem Run.moved (run : Run lib (initialSnapshot job session) history s) (present : s.entityExists = true) : history ≠ [] := by
  rintro rfl
  have unborn : s.entityExists = false := congrArg Snapshot.entityExists run.eq_start
  simp [unborn] at present

theorem Run.closes_step (run : Run lib (initialSnapshot job session) history s) (present : s.entityExists = true)
    (type : EventType) (permitted : allowed type) (other : type ≠ .jobCreated) (payload : EventPayload)
    (valid : validInternalPayload lib type payload s.jobId = true)
    (decided : decideByType s ⟨1, s.jobId, type, payload⟩ = .ok ⟨1, s.jobId, type, payload⟩)
    (applied : applyAuthorizedEvent s type payload = some u)
    (rest : ∀ history, Run lib (initialSnapshot job session) history u.1 → Closes lib allowed u.1) : Closes lib allowed s := by
  have inv := run.invariant (run.moved present)
  obtain ⟨proposal, proposed⟩ : ∃ proposal : PreEnvelopeProposal, proposal = ⟨1, s.jobId, type, payload⟩ := ⟨_, rfl⟩
  have accepted : decideEvent lib s proposal.event = .ok proposal := by
    subst proposed
    apply decideEvent_eq_ok_iff.2
    exact ⟨inv.valid, rfl, rfl, (validSnapshot_identity inv.valid).1, valid, .inr ⟨other, present, decided⟩⟩
  have next : (apply lib s proposal).snapshot = u.1 := by
    rw [apply_of_authorized accepted (by rw [proposed]; exact applied)]
  obtain ⟨events, t, each, ran, closed⟩ := rest _ (run.snoc ⟨.event _ accepted, next.symm⟩)
  refine ⟨proposal.event :: events, t, List.forall_mem_cons.2 ⟨?_, each⟩, ?_, closed⟩
  · rw [proposed]
    exact permitted
  · rw [runEvents_cons accepted, next]
    exact ran

theorem late_of_terminal (terminal : s.state.isTerminal = true) : s.state.isEarly = false := by
  cases state : s.state <;> simp_all [JobState.isTerminal, JobState.isEarly]

theorem Invariant.operation (inv : Invariant s) (launched : s.workerLaunchStatus ≠ .notStarted) :
    ∃ operation, s.launchOperationId = some operation ∧ isStable operation.value = true := by
  obtain ⟨operation, bound⟩ := Option.isSome_iff_exists.1 ((hasValidLaunchFacts_iff.1 inv.launch).2 launched).1
  exact ⟨operation, bound, (hasValidSnapshotOptionalDomains_iff.1 inv.domains).2.2.2.1 operation bound⟩

theorem Invariant.allocation (inv : Invariant s) (committed : s.resourceStatus ≠ .none) :
    ∃ allocation digest, s.allocationId = some allocation ∧ s.allocationDigest = some digest ∧
      isStable allocation.value = true ∧ isDigest digest.value = true := by
  obtain ⟨id, digest⟩ := (hasValidResourceFacts_iff.1 inv.resources).2.1 committed
  obtain ⟨allocation, bound⟩ := Option.isSome_iff_exists.1 id
  obtain ⟨digest, digested⟩ := Option.isSome_iff_exists.1 digest
  have domains := hasValidSnapshotOptionalDomains_iff.1 inv.domains
  exact ⟨allocation, digest, bound, digested, domains.2.1 allocation bound, domains.2.2.1 digest digested⟩

section Stages

variable (free : ∀ type, type ≠ .cancelAccepted → type ≠ .terminateAccepted → allowed type)

include free

theorem Run.closes_released (run : Run lib (initialSnapshot job session) history s) (terminal : s.state.isTerminal = true)
    (confirmed : s.processExitConfirmed = true) (released : s.resourceStatus ≠ .committed) : Closes lib allowed s := by
  by_cases pending : s.cleanupStatus = .pending
  · apply run.closes_step (run.present (late_of_terminal terminal)).1 .cleanupStatusRecorded (free _ nofun nofun) nofun
      (.cleanupStatus ⟨.completed⟩) rfl
    · simp [decideByType, decideCleanupStatusRecorded, acceptEvent, accept, terminal, pending]
    · rfl
    · intro history run
      refine ⟨[], _, by simp, rfl, ?_⟩
      simp [isClosed, isUnresolved, terminal, released, confirmed]
  · refine ⟨[], s, by simp, rfl, ?_⟩
    simp [isClosed, isUnresolved, terminal, released, confirmed, pending]

theorem Run.closes_exited (run : Run lib (initialSnapshot job session) history s) (terminal : s.state.isTerminal = true)
    (confirmed : s.processExitConfirmed = true) : Closes lib allowed s := by
  by_cases committed : s.resourceStatus = .committed
  · obtain ⟨present, inv⟩ := run.present (late_of_terminal terminal)
    obtain ⟨allocation, digest, bound, digested, stable, hex⟩ := inv.allocation (by simp [committed])
    apply run.closes_step present .resourcesReleased (free _ (by simp) (by simp)) (by simp) (.resourcesReleased ⟨allocation, digest⟩)
    · simp [validInternalPayload, payloadMatches, stable, hex]
    · simp [decideByType, decideResourcesReleased, acceptEvent, accept, terminal, confirmed, bound, digested, committed]
    · rfl
    · intro history run
      exact run.closes_released free terminal confirmed (by simp)
  · exact run.closes_released free terminal confirmed committed

theorem Run.closes_terminal (run : Run lib (initialSnapshot job session) history s) (terminal : s.state.isTerminal = true) :
    Closes lib allowed s := by
  cases confirmed : s.processExitConfirmed with
  | true => exact run.closes_exited free terminal confirmed
  | false =>
      obtain ⟨present, inv⟩ := run.present (late_of_terminal terminal)
      have launched : s.workerLaunchStatus ≠ .notStarted := by
        intro none
        have facts := (run.unlaunched none).2
        cases state : s.state <;> simp_all [JobState.isTerminal]
      obtain ⟨operation, bound, stable⟩ := inv.operation launched
      apply run.closes_step present .processExitConfirmed (free _ (by simp) (by simp)) (by simp) (.processExitConfirmed ⟨.cooperative, operation⟩)
      · simp [validInternalPayload, payloadMatches, stable]
      · have left : s.state ≠ .admitted := by
          intro admitted
          simp [admitted, JobState.isTerminal] at terminal
        simp [decideByType, decideProcessExitConfirmed, acceptEvent, accept, left, bound, confirmed]
      · rfl
      · intro history run
        simp only [applyProcessExitConfirmed, terminal, confirmed, Bool.or_true, if_true, Bool.false_eq_true, if_false] at run ⊢
        exact run.closes_exited free terminal rfl

theorem Run.closes_finalized (run : Run lib (initialSnapshot job session) history s) (finalizing : s.state = .finalizing)
    (reported : s.finalizationStatus ≠ .pending) : Closes lib allowed s := by
  obtain ⟨p, ⟨proposal, accepted⟩, -⟩ := terminalOutcome_unique run finalizing reported
  obtain ⟨-, -, -, -, valid, decided⟩ := decideEvent_eq_ok_iff.1 accepted
  obtain ⟨-, present, decided⟩ := decided.resolve_left (by simp [terminalOutcomeEvent])
  apply run.closes_step present .terminalOutcomeCommitted (free _ (by simp) (by simp)) (by simp) (.terminalOutcome p) valid
  · rcases decideByType_proposes (payloadMatches_of_valid valid) decided with same | ⟨_, other, -⟩
    · exact same ▸ decided
    · cases other
  · rfl
  · intro history run
    exact run.closes_terminal free (jobStateForOutcome_isTerminal _)

theorem Run.closes_finalizing (run : Run lib (initialSnapshot job session) history s) (finalizing : s.state = .finalizing) :
    Closes lib allowed s := by
  by_cases pending : s.finalizationStatus = .pending
  · obtain ⟨present, inv⟩ := run.present (by rw [finalizing]; rfl)
    apply run.closes_step present .finalizationFailed (free _ (by simp) (by simp)) (by simp) .empty rfl
    · rcases run.caused.finalizing finalizing with ⟨latched, -⟩ | ⟨-, candidate, -⟩
      · simp [decideByType, decideFinalizationFailed, acceptEvent, accept, finalizing, pending, Option.isSome_iff_ne_none.1 latched]
      · simp [decideByType, decideFinalizationFailed, acceptEvent, accept, finalizing, pending, candidate]
    · rfl
    · intro history run
      apply run.closes_finalized free
      · unfold applyFinalizationFailed
        split <;> exact finalizing
      · unfold applyFinalizationFailed
        split <;> simp
  · exact run.closes_finalized free finalizing pending

theorem Run.closes_launched (run : Run lib (initialSnapshot job session) history s)
    (active : s.state = .preparing ∨ s.state = .running ∨ s.state = .stopping) (launched : s.workerLaunchStatus ≠ .notStarted) :
    Closes lib allowed s := by
  have left : s.state ≠ .admitted := by
    rcases active with h | h | h <;> simp [h]
  obtain ⟨present, moved⟩ := run.born left
  obtain ⟨operation, bound, stable⟩ := (run.invariant moved).operation launched
  apply run.closes_step present .processExitConfirmed (free _ nofun nofun) nofun (.processExitConfirmed ⟨.cooperative, operation⟩)
  · simp [validInternalPayload, payloadMatches, stable]
  · rcases active with h | h | h <;>
      simp [decideByType, decideProcessExitConfirmed, acceptEvent, accept, h, bound, JobState.isTerminal]
  · rfl
  · intro history run
    apply run.closes_finalizing free
    rcases active with h | h | h <;> simp [applyProcessExitConfirmed, h, JobState.isTerminal, beginFinalizing]

theorem Run.closes_unlaunched (run : Run lib (initialSnapshot job session) history s) (preparing : s.state = .preparing)
    (unlaunched : s.workerLaunchStatus = .notStarted) : Closes lib allowed s := by
  obtain ⟨present, -⟩ := run.born (by simp [preparing])
  apply run.closes_step present .timeoutExpired (free _ nofun nofun) nofun (.timeoutExpired ⟨.preparation, 1⟩) rfl
  · simp [decideByType, decideTimeoutExpired, acceptEvent, accept, preparing]
  · rfl
  · intro history run'
    apply run'.closes_finalizing free
    simp [applyTimeoutExpired, applyPreparationTimeout, (run.unlaunched unlaunched).1, beginFinalizing]

theorem Run.closes_left (run : Run lib (initialSnapshot job session) history s) (left : s.state ≠ .admitted) :
    Closes lib allowed s := by
  have active (state : s.state = .preparing ∨ s.state = .running ∨ s.state = .stopping) : Closes lib allowed s := by
    by_cases unlaunched : s.workerLaunchStatus = .notStarted
    · have preparing : s.state = .preparing := by
        have inv := run.invariant (run.born left).2
        rcases state with h | h | h
        · exact h
        · exact absurd unlaunched (inv.launched run.unlaunched (.inl h))
        · exact absurd unlaunched (inv.launched run.unlaunched (.inr (.inl h)))
      exact run.closes_unlaunched free preparing unlaunched
    · exact run.closes_launched free state unlaunched
  cases state : s.state with
  | admitted => exact absurd state left
  | preparing => exact active (.inl state)
  | running => exact active (.inr (.inl state))
  | stopping => exact active (.inr (.inr state))
  | finalizing => exact run.closes_finalizing free state
  | succeeded | failed | cancelled | terminated | timedOut => exact run.closes_terminal free (by rw [state]; rfl)
  | invalid =>
      have inv := run.invariant (run.born left).2
      exact absurd state (hasValidSnapshotEnums_iff.1 inv.enums).1

end Stages

theorem Run.closes_admitted (run : Run lib (initialSnapshot job session) history s) (present : s.entityExists = true)
    (admitted : s.state = .admitted) : Closes lib (fun _ => True) s := by
  apply run.closes_step present .cancelAccepted trivial nofun (.principal ⟨text "a"⟩)
  · have principal : isPrincipal (text "a") = true := by decide
    simpa [validInternalPayload, payloadMatches] using principal
  · simp [decideByType, decideCancelAccepted, acceptEvent, accept, admitted, JobState.isTerminal]
  · rfl
  · intro history run
    apply run.closes_finalizing fun _ _ _ => trivial
    simp [applyCancelAccepted, admitted, beginFinalizing]

/-- No Job gets stuck: some accepted events close it, and once it left `admitted` without a cancel or terminate. -/
theorem job_closes (lib : Libraries) (job session : Uuid) (s : Snapshot)
    (reached : Reachable lib (initialSnapshot job session) s) (present : s.entityExists = true) :
    Closes lib (fun _ => True) s ∧
      (s.state ≠ .admitted → Closes lib (fun type => type ≠ .cancelAccepted ∧ type ≠ .terminateAccepted) s) := by
  obtain ⟨history, run⟩ := reached.run
  have without (left : s.state ≠ .admitted) : Closes lib (fun type => type ≠ .cancelAccepted ∧ type ≠ .terminateAccepted) s :=
    run.closes_left (fun _ cancel terminate => ⟨cancel, terminate⟩) left
  constructor
  · by_cases admitted : s.state = .admitted
    · exact run.closes_admitted present admitted
    · exact (without admitted).weaken fun _ _ => trivial
  · exact without

end Completion

theorem job_closes_preparing :
    samplePreparing.entityExists = true ∧ samplePreparing.state ≠ .admitted ∧
      Closes sampleLibraries (fun type => type ≠ .cancelAccepted ∧ type ≠ .terminateAccepted) samplePreparing := by
  have evaluated : samplePreparing.entityExists = true ∧ samplePreparing.state ≠ .admitted := by decide +kernel
  have closes := job_closes sampleLibraries sampleJob sampleJob samplePreparing samplePreparing_reachable evaluated.1
  exact ⟨evaluated.1, evaluated.2, closes.2 evaluated.2⟩

end Sitometron.Core
